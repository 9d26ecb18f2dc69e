/-
  Chat.ColdCache
  **THE COLD SESSIONS IN MEMORY.**

  A session that is read from disk is kept until the cold ones are too many.
  The eviction takes the least recently used one first: a hot session leaves
  the list and stays, one with unsaved changes moves to the end, any other is
  dropped.  The session just loaded stands last in the list, clean, and is
  dropped as well where the unsaved ones fill it.
-/
import Mathlib.Data.List.Nodup
import Mathlib.Logic.Function.Basic
import DeterminFlow.Library.Runs

namespace DeterminFlow.Chat.ColdCache

open Function Library.Runs List Option

/-! ## The manager -/

/-- A session object; the serial number tells two objects apart. -/
structure Session where
  serial : Nat
  compiledGraph : Bool := false
  invocationActive : Bool := false
  saveDirty : Bool := false
  deriving DecidableEq

def Session.isHot (s : Session) : Bool := s.compiledGraph || s.invocationActive

structure Manager where
  sessions : String → Option Session
  /-- The objects that the persistence manager saves. -/
  registered : String → Option Nat
  /-- `_cold_session_lru`, the least recently used first. -/
  lru : List String
  limit : Nat

namespace Manager

def isHot (m : Manager) (id : String) : Bool := (m.sessions id).any Session.isHot

def isDirty (m : Manager) (id : String) : Bool := (m.sessions id).any (·.saveDirty)

def unsaved (m : Manager) (id : String) : Bool := !m.isHot id && m.isDirty id

def clean (m : Manager) (id : String) : Bool := !m.isHot id && !m.isDirty id

/-- The sessions and their registrations without those of `ids`. -/
def without (m : Manager) (ids : List String) : Manager :=
  { m with
    sessions := fun id => if id ∈ ids then none else m.sessions id
    registered := fun id => if id ∈ ids then none else m.registered id }

/-- The loop of `_evict_cold_sessions`, with `dirty_examined`. -/
def evictLoop : Nat → Nat → Manager → Option Manager
  | 0, _, _ => none
  | fuel + 1, examined, m =>
    if m.lru.length ≤ m.limit then some m
    else
      match m.lru with
      | [] => some m
      | id :: rest =>
        if m.isHot id then evictLoop fuel examined { m with lru := rest }
        else if m.isDirty id then
          let m := { m with lru := rest ++ [id] }
          if m.lru.length ≤ examined + 1 then some m else evictLoop fuel (examined + 1) m
        else evictLoop fuel examined ({ m with lru := rest }.without [id])

/-- `get_session` up to the eviction, for an object read from disk. -/
def load (m : Manager) (id : String) (serial : Nat) : Manager :=
  { m with
    sessions := update m.sessions id (some { serial := serial })
    registered := update m.registered id (some serial)
    lru := if id ∈ m.lru then m.lru else m.lru ++ [id] }

def evict (m : Manager) : Option Manager := evictLoop (m.lru.length + 1) 0 m

/-- `get_session`; `loaded` is the object that `AgentSession.load` makes of a
session in the catalog.  Without a result, the eviction does not end. -/
def getSession (m : Manager) (id : String) (loaded : Option Nat) :
    Option (Manager × Option Session) :=
  match m.sessions id with
  | some s => some ({ m with lru := if id ∈ m.lru then m.lru.erase id ++ [id] else m.lru }, some s)
  | none =>
    match loaded with
    | none => some (m, none)
    | some serial => (m.load id serial).evict.map (·, some { serial := serial })

/-! ## One pass -/

/-- What a pass leaves that comes through `processed` and stops before `left`. -/
structure Passed (m m' : Manager) (processed left : List String) : Prop where
  split : m.lru = processed ++ left
  dropped : m' = { m.without (processed.filter m.clean) with lru := m'.lru }
  kept : m'.lru.Perm (left ++ processed.filter m.unsaved)
  ends : m'.lru.length ≤ m.limit ∨ left = []
  /-- The list is not made shorter than the limit. -/
  full : processed = [] ∨ m.limit ≤ m'.lru.length

/-- The manager inside a pass: the unsaved sessions stand behind those left. -/
def during (m : Manager) (processed left : List String) : Manager :=
  { m.without (processed.filter m.clean) with lru := left ++ processed.filter m.unsaved }

variable {m m' : Manager} {id : String} {processed left : List String}

lemma during_nil : m.during [] m.lru = m := by simp [during, without]

lemma not_dropped (h : id ∈ processed → m.clean id = false) : id ∉ processed.filter m.clean := by
  intro hmem
  simpa [h (mem_filter.1 hmem).1] using (mem_filter.1 hmem).2

lemma during_sessions (left : List String) (h : id ∈ processed → m.clean id = false) :
    (m.during processed left).sessions id = m.sessions id :=
  if_neg (not_dropped h)

lemma without_concat (ids : List String) :
    (m.without ids).without [id] = m.without (ids ++ [id]) := by
  simp only [without, mk.injEq, and_true]
  constructor <;> funext x <;> by_cases hx : x = id <;> by_cases hmem : x ∈ ids <;> simp [hx, hmem]

lemma not_clean (h : m.unsaved id = true) : m.clean id = false := by
  simp only [unsaved, Bool.and_eq_true] at h
  simp [clean, h.2]

lemma evictLoop_over {fuel examined : Nat} {rest : List String} (hlru : m.lru = id :: rest)
    (hover : m.limit < m.lru.length) : evictLoop (fuel + 1) examined m =
      if m.isHot id then evictLoop fuel examined { m with lru := rest }
      else if m.isDirty id then
        if (rest ++ [id]).length ≤ examined + 1 then some { m with lru := rest ++ [id] }
        else evictLoop fuel (examined + 1) { m with lru := rest ++ [id] }
      else evictLoop fuel examined ({ m with lru := rest }.without [id]) := by
  rw [evictLoop, if_neg (Nat.not_le.2 hover), hlru]

/-- **The eviction ends**, after at most one look at every session and one more. -/
theorem evictLoop_pass (hnodup : m.lru.Nodup) (left : List String) :
    ∀ processed, m.lru = processed ++ left →
      (processed = [] ∨ m.limit ≤ (m.during processed left).lru.length) →
      ∃ m' processed' left', evictLoop (left.length + 1) (processed.filter m.unsaved).length
        (m.during processed left) = some m' ∧ Passed m m' processed' left' := by
  induction left with
  | nil =>
    intro processed hsplit hfull
    by_cases hlimit : (m.during processed []).lru.length ≤ m.limit
    · exact ⟨_, processed, [], if_pos hlimit, hsplit, rfl, .refl _, .inr rfl, hfull⟩
    cases hcase : processed.filter m.unsaved with
    | nil => simp [during, hcase] at hlimit
    | cons id rest =>
      -- all that is left was examined: one more rotation, and the loop breaks
      have hunsaved := (mem_filter.1 (hcase ▸ mem_cons_self : id ∈ processed.filter m.unsaved)).2
      have hlru : (m.during processed []).lru = id :: rest := by simp [during, hcase]
      have hid : (m.during processed []).sessions id = m.sessions id :=
        during_sessions [] fun _ => not_clean hunsaved
      simp only [unsaved, isHot, isDirty, ← hid, Bool.and_eq_true, Bool.not_eq_true'] at hunsaved
      refine ⟨{ m.during processed [] with lru := rest ++ [id] }, processed, [], ?_, hsplit, rfl, ?_,
        .inr rfl, .inr ?_⟩
      · rw [length_nil, evictLoop_over hlru (Nat.not_le.1 hlimit), isHot, isDirty, hunsaved.1,
          hunsaved.2]
        simp
      · rw [hcase]
        exact perm_append_singleton _ _
      simp only [during, hcase, nil_append, length_cons] at hlimit
      simp only [length_append, length_singleton]
      omega
  | cons id left ih =>
    intro processed hsplit hfull
    by_cases hlimit : (m.during processed (id :: left)).lru.length ≤ m.limit
    · exact ⟨_, processed, id :: left, if_pos hlimit, hsplit, rfl, .refl _, .inl hlimit, hfull⟩
    have hid : id ∉ processed := fun hmem =>
      disjoint_of_nodup_append (hsplit ▸ hnodup) hmem mem_cons_self
    have hsession := during_sessions (m := m) (id :: left) fun hmem => absurd hmem hid
    have hover : m.limit ≤ left.length + (processed.filter m.unsaved).length := by
      simp only [during, length_append, length_cons] at hlimit
      omega
    have hnext := ih (processed ++ [id]) (by simp [hsplit])
      (.inr (by simp only [during, filter_append, length_append]; omega))
    have hlru : (m.during processed (id :: left)).lru =
        id :: (left ++ processed.filter m.unsaved) := rfl
    rw [length_cons, evictLoop_over hlru (Nat.not_le.1 hlimit), isHot, isDirty, hsession]
    change ∃ m' processed' left', (if m.isHot id then _ else if m.isDirty id then _ else _) = _ ∧ _
    by_cases hhot : m.isHot id = true
    · rw [if_pos hhot]
      have hunsaved : [id].filter m.unsaved = [] := by simp [unsaved, hhot]
      have hclean : [id].filter m.clean = [] := by simp [clean, hhot]
      simpa only [during, filter_append, hunsaved, hclean, append_nil] using hnext
    rw [if_neg hhot]
    by_cases hdirty : m.isDirty id = true
    · have hunsaved : [id].filter m.unsaved = [id] := by simp [unsaved, hhot, hdirty]
      have hclean : [id].filter m.clean = [] := by simp [clean, hdirty]
      rw [if_pos hdirty]
      split
      · next hlast =>
        simp only [length_append, length_singleton] at hlast
        obtain rfl : left = [] := eq_nil_of_length_eq_zero (by omega)
        refine ⟨_, processed ++ [id], [], rfl, by simp [hsplit], ?_, ?_, .inr rfl, .inr ?_⟩
        · simp only [filter_append, hclean, append_nil]; rfl
        · simp only [filter_append, hunsaved]; exact .refl _
        simp only [length_append, length_singleton]; simp only [length_nil] at hover; omega
      simpa only [during, filter_append, hunsaved, hclean, append_nil, append_assoc, length_append,
        length_singleton] using hnext
    have hunsaved : [id].filter m.unsaved = [] := by simp [unsaved, hdirty]
    have hclean : [id].filter m.clean = [id] := by simp [clean, hhot, hdirty]
    rw [if_neg hdirty]
    simp only [during, filter_append, hunsaved, hclean, append_nil, ← without_concat] at hnext
    exact hnext

/-! ## A call -/

/-- An eviction drops clean sessions, the least recently used first, and stops
only when the limit is met or none is left. -/
def Evicted (m m' : Manager) : Prop :=
  (∃ dropped, dropped <+: m.lru.filter m.clean ∧ m' = { m.without dropped with lru := m'.lru }) ∧
    (m'.lru.length ≤ m.limit ∨ ∀ id ∈ m'.lru, m'.clean id = false)

/-- **A call of `get_session`**: it ends, evicts as it should, and the object it
returns is the registered one. -/
def CallMeets (m : Manager) (id : String) (loaded : Option Nat) : Prop :=
  ∃ m' result, m.getSession id loaded = some (m', result) ∧
    (m.sessions id = none → ∀ serial, loaded = some serial → Evicted (m.load id serial) m') ∧
    ∀ s, result = some s → m'.sessions id = some s ∧ m'.registered id = some s.serial

/-- A loaded session finds room: the unsaved ones do not fill the list. -/
def Room (m : Manager) (id : String) (loaded : Option Nat) : Prop :=
  m.sessions id = none → loaded ≠ none → (m.lru.filter m.unsaved).length < m.limit

structure Sound (m : Manager) : Prop where
  nodup : m.lru.Nodup
  present : ∀ id ∈ m.lru, m.sessions id ≠ none
  registered : ∀ id s, m.sessions id = some s → m.registered id = some s.serial

lemma Passed.same (h : Passed m m' processed left) (hid : id ∈ processed → m.clean id = false) :
    m'.sessions id = m.sessions id ∧ m'.registered id = m.registered id := by
  rw [h.dropped]
  simp only [without, if_neg (not_dropped hid), and_self]

/-- What stays in the list is not looked at, or has unsaved changes. -/
lemma Passed.stays (h : Passed m m' processed left) (hnodup : m.lru.Nodup) (hid : id ∈ m'.lru) :
    id ∈ m.lru ∧ (id ∈ processed → m.clean id = false) := by
  rw [h.split]
  rcases mem_append.1 (h.kept.mem_iff.1 hid) with hleft | hkept
  · exact ⟨mem_append_right _ hleft, fun hmem =>
      absurd hleft (disjoint_of_nodup_append (h.split ▸ hnodup) hmem)⟩
  exact ⟨mem_append_left _ (mem_filter.1 hkept).1, fun _ => not_clean (mem_filter.1 hkept).2⟩

lemma Passed.evicted (h : Passed m m' processed left) : Evicted m m' := by
  refine ⟨⟨_, by rw [h.split, filter_append]; exact prefix_append _ _, h.dropped⟩,
    h.ends.imp_right fun hleft _ hid => ?_⟩
  have hkept := h.kept.mem_iff.1 hid
  rw [hleft, nil_append, mem_filter] at hkept
  have hclean := not_clean hkept.2
  simpa only [clean, isHot, isDirty, (h.same fun _ => hclean).1] using hclean

lemma Passed.sound (h : Passed m m' processed left) (hsound : m.Sound) : m'.Sound where
  nodup := by
    have hnodup := nodup_append_comm.1 (h.split ▸ hsound.nodup)
    exact h.kept.nodup_iff.2 (hnodup.sublist (List.Sublist.append_left filter_sublist _))
  present := by
    intro id hid
    obtain ⟨hmem, hkept⟩ := h.stays hsound.nodup hid
    rw [(h.same hkept).1]
    exact hsound.present id hmem
  registered := by
    intro id s hs
    by_cases hdrop : id ∈ processed.filter m.clean
    · rw [h.dropped] at hs
      simp only [without, if_pos hdrop] at hs
      cases hs
    have hkept : id ∈ processed → m.clean id = false := fun hmem =>
      Bool.eq_false_iff.2 fun hclean => hdrop (mem_filter.2 ⟨hmem, hclean⟩)
    rw [(h.same hkept).1] at hs
    rw [(h.same hkept).2]
    exact hsound.registered id s hs

lemma load_sound (h : m.Sound) (hnone : m.sessions id = none) (serial : Nat) :
    (m.load id serial).Sound ∧ (m.load id serial).lru = m.lru ++ [id] := by
  have hid : id ∉ m.lru := fun hmem => h.present id hmem hnone
  have hlru : (m.load id serial).lru = m.lru ++ [id] := if_neg hid
  refine ⟨⟨?_, ?_, ?_⟩, hlru⟩
  · rw [hlru]
    exact nodup_append_comm.1 (nodup_cons.2 ⟨hid, h.nodup⟩)
  · intro x hx
    rw [hlru] at hx
    by_cases heq : x = id
    · simp [load, heq]
    have hmem : x ∈ m.lru := by simpa [heq] using hx
    simpa [load, heq] using h.present x hmem
  intro x s hs
  by_cases heq : x = id
  · subst heq
    simp only [load, update_self, some.injEq] at hs ⊢
    rw [← hs]
  simp only [load, update_of_ne heq] at hs ⊢
  exact h.registered x s hs

/-- **The session just loaded stays exactly when it finds room.** -/
theorem Passed.last_stays {serial : Nat} (hsound : m.Sound) (hnone : m.sessions id = none)
    (h : Passed (m.load id serial) m' processed left) : m'.sessions id = some { serial :=serial } ↔ (m.lru.filter m.unsaved).length < m.limit := by
  obtain ⟨_, hlast⟩ := load_sound hsound hnone serial
  have hid : id ∉ m.lru := fun hmem => hsound.present id hmem hnone
  have hsession : (m.load id serial).sessions id = some { serial := serial } := by simp [load]
  have hclean : (m.load id serial).clean id = true := by
    simp [clean, isHot, isDirty, hsession, Session.isHot]
  have hfresh : [id].filter (m.load id serial).unsaved = [] := by simp [unsaved, isDirty, hsession]
  have hfilter : m.lru.filter (m.load id serial).unsaved = m.lru.filter m.unsaved :=
    filter_congr fun x hx => by
      have hne : x ≠ id := fun heq => hid (heq ▸ hx)
      simp [unsaved, isHot, isDirty, load, hne]
  have hsplit := hlast.symm.trans h.split
  have hlength := h.kept.length_eq
  rw [length_append] at hlength
  rcases eq_nil_or_concat left with rfl | ⟨before, x, rfl⟩
  · -- the pass went through the whole list, the new session included
    rw [append_nil] at hsplit
    rw [← hsplit, filter_append, hfilter, hfresh, append_nil, length_nil] at hlength
    have hmem : id ∈ processed.filter (m.load id serial).clean :=
      mem_filter.2 ⟨by simp [← hsplit], hclean⟩
    have hfull := h.full.resolve_left fun hnil => by simp [hnil] at hsplit
    have hgone : m'.sessions id = none := by rw [h.dropped]; simp only [without, if_pos hmem]
    simp only [hgone, reduceCtorEq, false_iff, Nat.not_lt]
    exact Nat.le_trans hfull (by omega)
  rw [concat_eq_append] at hsplit hlength
  rw [← append_assoc] at hsplit
  obtain ⟨hbefore, hx⟩ := append_inj' hsplit rfl
  obtain rfl := singleton_inj.1 hx
  have hkept : id ∉ processed := fun hmem => hid (hbefore ▸ mem_append_left _ hmem)
  have hlimit := h.ends.resolve_right (by simp)
  have hcount := length_filter_le (m.load id serial).unsaved before
  rw [(h.same fun hmem => absurd hmem hkept).1, hsession, ← hfilter, hbefore, filter_append]
  simp only [length_append, length_singleton, true_iff] at hlength ⊢
  exact Nat.lt_of_lt_of_le (by omega) hlimit

/-! ## Runs -/

/-- Between two calls, sessions become hot, unsaved or clean. -/
def change (m : Manager) (changed : String → Session → Session) : Manager :=
  { m with sessions := fun id =>
      (m.sessions id).map fun s => { changed id s with serial := s.serial } }

structure Call where
  changed : String → Session → Session := fun _ s => s
  id : String
  loaded : Option Nat

def step (m : Manager) (c : Call) : Option Manager :=
  ((m.change c.changed).getSession c.id c.loaded).map (·.1)

lemma change_sound (h : m.Sound) (changed : String → Session → Session) :
    (m.change changed).Sound where
  nodup := h.nodup
  present := fun id hid => by simpa [change] using h.present id hid
  registered := by
    intro id _ hs
    obtain ⟨s', hs', rfl⟩ := map_eq_some_iff.1 hs
    exact h.registered id s' hs'

lemma getSession_spec (hsound : m.Sound) (id : String) (loaded : Option Nat) :
    (∃ m' result, m.getSession id loaded = some (m', result) ∧ m'.Sound) ∧
      (m.CallMeets id loaded ↔ m.Room id loaded) := by
  cases hsession : m.sessions id with
  | some s =>
    have hget : m.getSession id loaded =
        some ({ m with lru := if id ∈ m.lru then m.lru.erase id ++ [id] else m.lru }, some s) := by
      simp only [getSession, hsession]
    have hperm : (if id ∈ m.lru then m.lru.erase id ++ [id] else m.lru).Perm m.lru := by
      split
      · next hmem =>
          exact (perm_append_singleton _ _).trans (perm_cons_erase hmem).symm
      exact .refl _
    refine ⟨⟨_, _, hget, hperm.nodup_iff.2 hsound.nodup,
      fun x hx => hsound.present x (hperm.mem_iff.1 hx), hsound.registered⟩, ?_⟩
    have hmeets : m.CallMeets id loaded := by
      refine ⟨_, _, hget, fun hnone => ?_, fun _ hs' => ?_⟩
      · rw [hsession] at hnone
        cases hnone
      obtain rfl := some.inj hs'
      exact ⟨hsession, hsound.registered id s hsession⟩
    exact iff_of_true hmeets fun hnone => by rw [hsession] at hnone; cases hnone
  | none =>
    cases loaded with
    | none =>
      have hget : m.getSession id none = some (m, none) := by simp only [getSession, hsession]
      have hmeets : m.CallMeets id none := ⟨m, none, hget, by simp, by simp⟩
      exact ⟨⟨m, none, hget, hsound⟩, iff_of_true hmeets fun _ h => absurd rfl h⟩
    | some serial =>
      obtain ⟨hload, -⟩ := load_sound hsound hsession serial
      obtain ⟨m', _, _, hloop, hpass⟩ :=
        evictLoop_pass hload.nodup (m.load id serial).lru [] rfl (.inl rfl)
      have hget : m.getSession id (some serial) = some (m', some { serial := serial }) := by
        simp only [getSession, hsession, evict, during_nil, filter_nil, length_nil] at hloop ⊢
        rw [hloop]
        rfl
      have hsound' := hpass.sound hload
      have hstays := hpass.last_stays hsound hsession
      refine ⟨⟨m', _, hget, hsound'⟩, ?_⟩
      constructor
      · rintro ⟨_, result, hget₂, -, hreg⟩ _ _
        rw [hget] at hget₂
        obtain ⟨rfl, rfl⟩ := Prod.mk.inj (some.inj hget₂)
        exact hstays.1 (hreg _ rfl).1
      intro hroom
      have hin := hstays.2 (hroom hsession (some_ne_none _))
      refine ⟨m', _, hget, fun _ _ hother => ?_, fun s hs => ?_⟩
      · obtain rfl := some.inj hother
        exact hpass.evicted
      obtain rfl := some.inj hs
      exact ⟨hin, hsound'.registered id _ hin⟩

/-- **Every call of every sequence**: it ends, and meets what is asked of it
exactly when the session it loads finds room. -/
theorem getSession_runs (m : Manager) (hsound : m.Sound) (calls : List Call) :
    Along step (fun m c => (∃ m', step m c = some m') ∧
      ((m.change c.changed).CallMeets c.id c.loaded ↔ (m.change c.changed).Room c.id c.loaded))
      m calls := by
  induction calls generalizing m with
  | nil => trivial
  | cons c rest ih =>
    obtain ⟨⟨m₁, _, hget, hsound₁⟩, hiff⟩ :=
      getSession_spec (change_sound hsound c.changed) c.id c.loaded
    have hstep : step m c = some m₁ := by simp only [step, hget, Option.map_some]
    exact (along_cons_some hstep).2 ⟨⟨⟨m₁, hstep⟩, hiff⟩, ih m₁ hsound₁⟩

/-- Room for one, and the one there has unsaved changes. -/
def full : Manager where
  sessions := fun id => if id = "a" then some { serial := 0, saveDirty := true } else none
  registered := fun id => if id = "a" then some 0 else none
  lru := ["a"]
  limit := 1

lemma full_sound : full.Sound where
  nodup := nodup_singleton _
  present := by simp [full]
  registered := by
    intro id _ hs
    by_cases heq : id = "a"
    · subst heq
      obtain rfl := some.inj hs
      rfl
    simp [full, heq] at hs

theorem getSession_runs_full : Along step (fun m c => (∃ m', step m c = some m') ∧
      ((m.change c.changed).CallMeets c.id c.loaded ↔ (m.change c.changed).Room c.id c.loaded))
      full [{ id := "b", loaded := some 1 }] :=
  getSession_runs full full_sound _

/-- The session just loaded is returned and is registered nowhere. -/
theorem full_forgets : ¬ ∀ (m : Manager), m.Sound → ∀ calls : List Call,
    Along step (fun m c => (m.change c.changed).CallMeets c.id c.loaded) m calls := by
  intro hall
  obtain ⟨⟨_, _, hget, -, hreg⟩, -⟩ := hall full full_sound [{ id := "b", loaded := some 1 }]
  obtain ⟨rfl, rfl⟩ := Prod.mk.inj (some.inj hget)
  have hgone := (hreg _ rfl).1
  cases hgone

end Manager
end DeterminFlow.Chat.ColdCache
