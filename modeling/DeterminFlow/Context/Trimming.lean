/-
  Context.Trimming
  **WHAT ELSE SHORTENS A CONTEXT.**

  The micro strategy clips tool results, the reactive strategy drops the
  oldest round after the latest checkpoint, and the hard trim keeps what fits
  into the window.  None of them makes a message: each keeps, moves or drops
  the messages it finds, and rewrites contents of tool messages only.
-/
import Mathlib.Data.List.Forall2
import DeterminFlow.Context.FullCompact

namespace DeterminFlow.Context

open Library List Option

/-! ## The operations -/

def microContent (dense : Bool) (placeholder : String) (budget : Nat) (m : Message) : Message :=
  if dense then { m with content := .text placeholder }
  else if budget < contentTokens m then
    { m with content := .text (clipContent m.content budget) }
  else m

/-- `MicroCompactStrategy.execute`; `maxToolResults` and `placeholder` are
settings of its own. -/
def microCompact (cfg : CompressionConfig) (maxToolResults : Nat) (placeholder : String)
    (messages : List Message) : List Message :=
  let toolIndices := (List.range messages.length).filter (hasRole messages .tool)
  if (toolIndices.length : Int) ≤ cfg.keepRecentToolResults then messages
  else
    let historical := toolIndices.take (toolIndices.length - cfg.keepRecentToolResults.toNat)
    let total := (toolIndices.map (fun i => ((messages[i]?).map contentTokens).getD 0)).sum
    let dense := decide (maxToolResults < toolIndices.length ∧ cfg.toolBudget < total)
    messages.mapIdx (fun i m =>
      if i ∈ historical then microContent dense placeholder cfg.toolBudget m else m)

def fromCheckpoint (messages : List Message) : List Message :=
  match findLatestCheckpointIndex messages with
  | none => messages
  | some c => messages.filter (·.role = .system) ++ (messages[c]?).toList
      ++ (messages.drop (c + 1)).filter (·.role ≠ .system)

def protectedPrefixEnd (messages : List Message) : Nat :=
  match findLatestCheckpointIndex messages with
  | some c => c + 1
  | none => (messages.takeWhile (·.role = .system)).length

def answeredLater : List Message → Bool
  | [] => false
  | m :: rest =>
    if m.role = .ai then true else if m.role = .human then false else answeredLater rest

def findOldestRoundStart (messages : List Message) (start : Nat) : Option Nat :=
  ((List.range messages.length).filter (fun i => decide (start ≤ i))).find? (fun i =>
    hasRole messages .human i && answeredLater (messages.drop (i + 1)))

/-- The messages of a round: up to its assistant message, and the assistant
and tool messages that follow. -/
def roundLength : List Message → Nat
  | [] => 0
  | m :: rest =>
    if m.role = .ai then 1 + (rest.takeWhile (fun m => m.role = .tool ∨ m.role = .ai)).length
    else 1 + roundLength rest

def discardOldestRound (messages : List Message) : List Message :=
  let current := fromCheckpoint messages
  match findOldestRoundStart current (protectedPrefixEnd current) with
  | none => current
  | some start => current.take start
      ++ current.drop (start + 1 + roundLength (current.drop (start + 1)))

def fitting (maxTokens : Nat) : (spent : Nat) → List Message → List Message
  | _, [] => []
  | spent, m :: rest =>
    if maxTokens < spent + contentTokens m then []
    else m :: fitting maxTokens (spent + contentTokens m) rest

def contentsTokens (messages : List Message) : Nat := (messages.map contentTokens).sum

/-- `trim_langchain_messages`. -/
def trimMessages (maxTokens : Nat) (messages : List Message) : List Message :=
  if messages = [] then messages
  else if contentsTokens messages ≤ maxTokens then sanitizeToolPairs messages
  else
    let system := messages.filter (·.role = .system)
    let checkpoint := (findLatestCheckpointIndex messages).bind (fun c => messages[c]?)
    let candidates := (messages.drop (((findLatestCheckpointIndex messages).map (· + 1)).getD 0)).filter
      (·.role ≠ .system)
    let kept := (fitting maxTokens (contentsTokens system + contentsTokens checkpoint.toList)
      candidates.reverse).reverse
    sanitizeToolPairs (system ++ checkpoint.toList ++ kept)

/-! ## What they keep -/

/-- The same message, but for the content of a tool message and for calls
without results. -/
structure Kin (m m' : Message) : Prop where
  origin : m'.origin = m.origin
  role : m'.role = m.role
  content : m.role ≠ .tool → m'.content = m.content

lemma Kin.refl (m : Message) : Kin m m := ⟨rfl, rfl, fun _ => rfl⟩

variable {m m' : Message} {l l'' l' : List Message} {i c : Nat}

lemma Kin.trans {m'' : Message} (h : Kin m m') (h' : Kin m' m'') : Kin m m'' :=
  ⟨h'.origin.trans h.origin, h'.role.trans h.role,
    fun hrole => (h'.content (by rw [h.role]; exact hrole)).trans (h.content hrole)⟩

lemma Kin.isCheckpoint {m m' : Message} (h : Kin m m') : isCheckpoint m' = isCheckpoint m := by
  by_cases hrole : m.role = .ai
  · unfold Context.isCheckpoint
    rw [h.role, h.content (by rw [hrole]; decide)]
  have hrole' : m'.role ≠ .ai := by rw [h.role]; exact hrole
  unfold Context.isCheckpoint
  rw [beq_eq_false_iff_ne.2 hrole, beq_eq_false_iff_ne.2 hrole', Bool.false_and, Bool.false_and]

/-- **A context made from the messages of another**: of no kind it holds more. -/
def Derived (messages result : List Message) : Prop :=
  ∀ p : Message → Bool, (∀ m m', Kin m m' → p m' = true → p m = true) →
    result.countP p ≤ messages.countP p

lemma Derived.refl (messages : List Message) : Derived messages messages := fun _ _ => le_rfl

lemma Derived.trans (h : Derived l l') (h' : Derived l' l'') : Derived l l'' :=fun p hp => (h' p hp).trans (h p hp)

lemma derived_of_sublist {messages result : List Message} (h : result.Sublist messages) :
    Derived messages result := fun _ _ => h.countP_le

def Thinned (messages result : List Message) : Prop :=
  List.SublistForall₂ (fun m' m => Kin m m') result messages

instance : IsTrans Message (fun m' m => Kin m m') := ⟨fun _ _ _ h h' => h'.trans h⟩

instance : Std.Refl (fun m' m : Message => Kin m m') := ⟨Kin.refl⟩

lemma thinned_of_sublist {messages result : List Message} (h : result.Sublist messages) :
    Thinned messages result := h.sublistForall₂

lemma Thinned.refl (messages : List Message) : Thinned messages messages :=
  thinned_of_sublist (List.Sublist.refl messages)

lemma Thinned.trans (h : Thinned l l') (h' : Thinned l' l'') : Thinned l l'' :=List.SublistForall₂.is_trans.trans _ _ _ h' h

lemma Thinned.derived {messages result : List Message} (h : Thinned messages result) :
    Derived messages result := by
  intro p hp
  unfold Thinned at h
  induction h with
  | nil => exact Nat.zero_le _
  | @cons m' m _ _ hkin _ ih =>
    rw [countP_cons, countP_cons]
    by_cases hcount : p m' = true
    · rw [if_pos hcount, if_pos (hp m m' hkin hcount)]
      omega
    rw [if_neg hcount]
    omega
  | cons_right =>
    rw [countP_cons]
    omega

lemma thinned_filterMap {f : Message → Option Message}
    (hf : ∀ m m', f m = some m' → Kin m m') (messages : List Message) :
    Thinned messages (messages.filterMap f) := by
  induction messages with
  | nil => exact .refl []
  | cons m rest ih =>
    cases hm : f m with
    | none =>
      rw [filterMap_cons_none hm]
      exact List.SublistForall₂.cons_right ih
    | some m' =>
      rw [filterMap_cons_some hm]
      exact List.SublistForall₂.cons (hf m m' hm) ih

lemma thinned_set {messages : List Message} (hm : messages[i]? = some m) (hkin : Kin m m') :
    Thinned messages (messages.set i m') := by
  induction messages generalizing i with
  | nil => exact .refl []
  | cons head rest ih =>
    cases i with
    | zero =>
      obtain rfl := some.inj hm
      exact List.SublistForall₂.cons hkin (Thinned.refl rest)
    | succ i => exact List.SublistForall₂.cons (Kin.refl head) (ih (show rest[i]? = some m from hm))

lemma countP_roles (p : Message → Bool) (messages : List Message) :
    messages.countP p = (messages.filter (·.role = .system)).countP p
      + (messages.filter (·.role ≠ .system)).countP p := by
  induction messages with
  | nil => rfl
  | cons m rest ih =>
    by_cases hrole : m.role = .system <;> by_cases hm : p m = true <;>
      simp [hrole, hm, ih] <;> omega

lemma latestCheckpoint_role {messages : List Message}
    (hc : findLatestCheckpointIndex messages = some c) :
    ∀ m, messages[c]? = some m → m.role ≠ .system := by
  intro m hm
  have hp := (scanDown_eq_some.1 hc).1.2.2
  rw [hm] at hp
  unfold isCheckpoint at hp
  rw [any_some, Bool.and_eq_true, beq_iff_eq] at hp
  rw [hp.1]
  decide

lemma checkpoint_sublist (messages : List Message) (c : Nat) :
    ((messages[c]?).toList ++ messages.drop (c + 1)).Sublist messages := by
  cases hc : messages[c]? with
  | none =>
    rw [toList_none, nil_append]
    exact drop_sublist _ _
  | some m =>
    have hlt : c < messages.length := (List.getElem?_eq_some_iff.1 hc).1
    have hget : messages[c] = m := (List.getElem?_eq_some_iff.1 hc).2
    rw [toList_some, singleton_append, ← hget, ← drop_eq_getElem_cons hlt]
    exact drop_sublist _ _

lemma countP_parts {l₁ l₂ l₃ messages : List Message} (p : Message → Bool)
    (h₁ : l₁ = messages.filter (·.role = .system))
    (h₂ : ∀ m, messages[c]? = some m → m.role ≠ .system) (h₂' : l₂ = (messages[c]?).toList)
    (h₃ : l₃.Sublist ((messages.drop (c + 1)).filter (·.role ≠ .system))) :
    (l₁ ++ l₂ ++ l₃).countP p ≤ messages.countP p := by
  have hsplit := countP_roles p messages
  have htail : (l₂ ++ l₃).countP p ≤ (messages.filter (·.role ≠ .system)).countP p := by
    have hl₂ : l₂.filter (·.role ≠ .system) = l₂ := by
      refine filter_eq_self.2 (fun m hm => ?_)
      rw [h₂'] at hm
      simpa using h₂ m (mem_toList.1 hm)
    have hsub : (l₂ ++ l₃).Sublist (messages.filter (·.role ≠ .system)) := by
      have hparts := checkpoint_sublist messages c
      have hfiltered := hparts.filter (fun m : Message => decide (m.role ≠ .system))
      rw [filter_append] at hfiltered
      refine List.Sublist.trans ?_ hfiltered
      refine List.Sublist.append ?_ h₃
      rw [← h₂', hl₂]
    exact hsub.countP_le
  rw [append_assoc, countP_append, h₁, hsplit]
  omega

lemma sanitizeCalls_kin {answered : List String} (h : sanitizeCalls answered m = some m') :
    Kin m m' := by
  unfold sanitizeCalls at h
  split at h
  · split at h
    · rw [← some.inj h]
      exact ⟨rfl, rfl, fun _ => rfl⟩
    cases h
  rw [← some.inj h]
  exact .refl m

lemma thinned_sanitizeToolPairs (messages : List Message) :
    Thinned messages (sanitizeToolPairs messages) :=
  (thinned_filterMap (fun _ _ => sanitizeCalls_kin) messages).trans
    (thinned_of_sublist filter_sublist)

lemma derived_sanitizeToolPairs (messages : List Message) :
    Derived messages (sanitizeToolPairs messages) := (thinned_sanitizeToolPairs messages).derived

lemma kin_of_tool (hrole : m.role = .tool) (content : Content) : Kin m { m with content :=content } := ⟨rfl, rfl, fun h => absurd hrole h⟩

lemma thinned_clipCandidates {indices : List Nat} {messages : List Message} {excess : Int}
    (hindices : ∀ i ∈ indices, hasRole messages .tool i = true) :
    Thinned messages (indices.foldl clipCandidate (messages, excess)).1 := by
  induction indices generalizing messages excess with
  | nil => exact .refl messages
  | cons i rest ih =>
    rw [foldl_cons]
    unfold clipCandidate
    -- every candidate is a tool result, also after the earlier ones were clipped
    obtain ⟨m, hm, hrole⟩ : ∃ m, messages[i]? = some m ∧ m.role = .tool := by
      have hi := hindices i mem_cons_self
      unfold hasRole at hi
      cases hget : messages[i]? with
      | none => rw [hget] at hi; cases hi
      | some m => rw [hget] at hi; exact ⟨m, rfl, by simpa using hi⟩
    have hrest : ∀ j ∈ rest, hasRole messages .tool j = true :=
      fun j hj => hindices j (mem_cons_of_mem _ hj)
    simp only [hm]
    split
    · exact ih hrest
    split
    · exact ih hrest
    have hkin := kin_of_tool hrole (.text (clipContent m.content
      (max (min 64 (contentTokens m) : Int) ((contentTokens m : Int) - excess)).toNat))
    refine (thinned_set hm hkin).trans (ih (fun j hj => ?_))
    have hold := hrest j hj
    unfold hasRole at hold ⊢
    rw [getElem?_set]
    by_cases hij : i = j
    · subst hij
      rw [if_pos rfl, if_pos (List.getElem?_eq_some_iff.1 hm).1]
      simpa using hrole
    rw [if_neg hij]
    exact hold

variable (cfg : CompressionConfig) (maxToolResults maxTokens : Nat)

lemma thinned_compactForRequest (messages : List Message) :
    Thinned messages (compactForRequest cfg messages) := by
  unfold compactForRequest
  exact thinned_clipCandidates (fun _ hi => (mem_filter.1 hi).2)

lemma derived_compactForRequest (messages : List Message) :
    Derived messages (compactForRequest cfg messages) :=
  (thinned_compactForRequest cfg messages).derived

lemma thinned_mapIdx {messages : List Message} {f : Nat → Message → Message}
    (hf : ∀ i m, messages[i]? = some m → Kin m (f i m)) : Thinned messages (messages.mapIdx f) := by
  induction messages generalizing f with
  | nil => exact .refl []
  | cons m rest ih =>
    rw [mapIdx_cons]
    exact List.SublistForall₂.cons (hf 0 m rfl) (ih (fun i m hm => hf (i + 1) m hm))

lemma thinned_microCompact (placeholder : String) (messages : List Message) :
    Thinned messages (microCompact cfg maxToolResults placeholder messages) := by
  unfold microCompact
  dsimp only
  split
  · exact .refl messages
  refine thinned_mapIdx (fun i m hm => ?_)
  split
  · rename_i hmem
    have htool := (mem_filter.1 (mem_of_mem_take hmem)).2
    unfold hasRole at htool
    rw [hm] at htool
    have hrole : m.role = .tool := by simpa using htool
    unfold microContent
    split
    · exact kin_of_tool hrole _
    split
    · exact kin_of_tool hrole _
    exact .refl m
  exact .refl m

lemma derived_microCompact (placeholder : String) (messages : List Message) :
    Derived messages (microCompact cfg maxToolResults placeholder messages) :=
  (thinned_microCompact cfg maxToolResults placeholder messages).derived

lemma derived_fromCheckpoint (messages : List Message) :
    Derived messages (fromCheckpoint messages) := by
  unfold fromCheckpoint
  cases hc : findLatestCheckpointIndex messages with
  | none => exact .refl messages
  | some =>
    exact fun p _ => countP_parts p rfl (latestCheckpoint_role hc) rfl (.refl _)

lemma take_drop_sublist {α : Type} (l : List α) {j : Nat} (hij : i ≤ j) :
    (l.take i ++ l.drop j).Sublist l := by
  have hdrop : (l.drop j).Sublist (l.drop i) := by
    rw [show j = i + (j - i) by omega, ← drop_drop]
    exact drop_sublist _ _
  have hparts := (List.Sublist.refl (l.take i)).append hdrop
  rwa [take_append_drop] at hparts

lemma derived_discardOldestRound (messages : List Message) :
    Derived messages (discardOldestRound messages) := by
  refine (derived_fromCheckpoint messages).trans ?_
  unfold discardOldestRound
  dsimp only
  split
  · exact .refl _
  rename_i start _
  exact derived_of_sublist (take_drop_sublist _ (by omega))

lemma fitting_sublist (spent : Nat) (messages : List Message) :
    (fitting maxTokens spent messages).Sublist messages := by
  induction messages generalizing spent with
  | nil => exact .refl _
  | cons m rest ih =>
    unfold fitting
    split
    · exact nil_sublist _
    exact (ih _).cons_cons m

lemma derived_trimMessages (messages : List Message) :
    Derived messages (trimMessages maxTokens messages) := by
  unfold trimMessages
  split
  · exact .refl messages
  split
  · exact derived_sanitizeToolPairs messages
  dsimp only
  refine Derived.trans ?_ (derived_sanitizeToolPairs _)
  have hkept : ∀ (spent : Nat) (l : List Message),
      ((fitting maxTokens spent l.reverse).reverse).Sublist l := by
    intro spent l
    have h := (fitting_sublist maxTokens spent l.reverse).reverse
    rwa [reverse_reverse] at h
  cases hc : findLatestCheckpointIndex messages with
  | none =>
    intro p _
    have hsplit : messages.countP p = (messages.filter (·.role = .system)).countP p
        + (messages.filter (·.role ≠ .system)).countP p := countP_roles p messages
    have hle := (hkept (contentsTokens (messages.filter (·.role = .system))
      + contentsTokens []) (messages.filter (·.role ≠ .system))).countP_le (p := p)
    simp only [bind_none, toList_none, append_nil, map_none,
      getD_none, drop_zero, countP_append]
    omega
  | some =>
    exact fun p _ => countP_parts p rfl (latestCheckpoint_role hc) rfl (hkept _ _)

end DeterminFlow.Context
