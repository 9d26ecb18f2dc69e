/-
  Workflow.FrozenIdentity
  **THE FROZEN IDENTITY OF AN AGENT.**

  When a task is created the agent type and the model of an agent node are
  resolved once, over the defaults and the parameters; when the node runs they
  are resolved again, over the values of the task, and a difference refuses the
  node.  The two resolvers read values differently.
-/
import DeterminFlow.Workflow.Expansion

namespace DeterminFlow.Workflow.Placeholders

open Library Workflow.Condition List Dict Except
open Option (bind_eq_some_iff bind_some some.inj)

/-! ## Freezing -/

/-- `str(value or "")` -/
def shownText : Value → Text
  | .null => []
  | .text text => text
  | .other truthy shown _ => if truthy then shown else []

def freezeValues (vars : List Variable) (parameters : Dict Text Value) : Dict Text Text :=
  Dict.update
    (Dict.update [] ((vars.filter (fun v => v.key ≠ [])).map (fun v => (v.key, shownText v.default))))
    (parameters.mapValues (fun _ value => shownText value))

/-- The texts of an agent node that are frozen. -/
structure AgentNode where
  agentType : Text
  modelOverride : Text
  deriving DecidableEq

section
variable (w : WordClass) (values : Dict Text Text)

def substituteKnown (text : Text) : Text :=
  subPieces (fun key => (values.get? key).getD (placeholder key)) (scan w text)

/-- The rounds of `_resolve_static_value`. -/
def staticRounds : Nat → Text → Text
  | 0, resolved => resolved
  | n + 1, resolved =>
    let changed := (holes w resolved).any (fun key => (values.get? key).isSome)
    if changed then staticRounds n (substituteKnown w values resolved)
    else substituteKnown w values resolved

def resolveStaticValue (value : Text) (field : String) : Except String Text :=
  let resolved := staticRounds w values 10 value
  if (search w resolved).isSome then
    .error ("无法在 Task 创建时冻结动态 " ++ field ++ ": " ++ String.ofList value)
  else .ok resolved

/-- The model that `_freeze_agent_identity` freezes: there may be none. -/
def freezeModelOverride (modelOverride : Text) : Except String Text :=
  if modelOverride = [] then .ok [] else resolveStaticValue w values modelOverride "model_override"

/-- The agent type and the model that `_freeze_agent_identity` freezes. -/
def freezeAgentIdentity (node : AgentNode) : Except String (Text × Text) := do
  let agentType ← resolveStaticValue w values node.agentType "agent_type"
  let modelOverride ← freezeModelOverride w values node.modelOverride
  .ok (agentType, modelOverride)

end

/-- The model that `AgentNode.execute` resolves. -/
def resolveModelOverride (w : WordClass) (out : Outside) (fuel : Nat) (modelOverride : Text)
    (values : Dict Text Value) (vars : List Variable) (sharedWs : Bool) :
    Option (Except String Text) :=
  if modelOverride = [] then some (.ok [])
  else resolvePlaceholders w out fuel modelOverride values vars sharedWs

/-- The agent type and the model that `AgentNode.execute` resolves. -/
def resolveAgentIdentity (w : WordClass) (out : Outside) (fuel : Nat) (node : AgentNode)
    (values : Dict Text Value) (vars : List Variable) (sharedWs : Bool) :
    Option (Except String (Text × Text)) := do
  let agentType ← resolvePlaceholders w out fuel node.agentType values vars sharedWs
  let modelOverride ← resolveModelOverride w out fuel node.modelOverride values vars sharedWs
  some (agentType.bind (fun a => modelOverride.map (fun m => (a, m))))

def drifted (frozen resolved : Text × Text) : Bool :=
  decide (frozen.1 ≠ resolved.1) || decide (frozen.2 ≠ resolved.2)

/-! ## What is resolved, by the variables that are referred to -/

section
variable {w : WordClass} {values : Dict Text Text} {K : Text → Prop} {rank : Text → Nat}

lemma resolveNestedValue_det {n m : Nat} {visited : List Text} {depth : Nat} {value : Text}
    {r s : Except ResolveError Text}
    (hr : resolveNestedValue w values n visited depth value = some r)
    (hs : resolveNestedValue w values m visited depth value = some s) : r = s := by
  have hr := resolveNestedValue_mono (Nat.le_max_left n m) hr
  have hs := resolveNestedValue_mono (Nat.le_max_right n m) hs
  exact some.inj (hr.symm.trans hs)

variable {fuel : Nat} {resolved : Dict Text Text} {out : Outside}

lemma WellOrdered.resolved_first (h : WellOrdered w values K rank) {first : Dict Text Text}
    (hfirst : values.mapValues? (fun _ value => expandValue w fuel values value value) = some first) :
    Resolved w values K first := by
  have hget := get?_mapValues? hfirst
  constructor
  · intro key hkey
    rw [hget key]
    cases hvalue : values.get? key with
    | none => rfl
    | some value =>
      obtain ⟨_, henough⟩ := h.first hkey hvalue
        (by rw [Nat.zero_add]; exact h.ranked.bound key value hkey hvalue)
        (fun _ hother => absurd hother not_mem_nil)
      obtain ⟨image, himage⟩ := exists_of_mapValues? hfirst (mem_of_get? hvalue)
      obtain ⟨_, hr, -⟩ := Option.map_eq_some_iff.1 himage
      obtain rfl := resolveNestedValue_det hr henough
      rw [bind_some, expandValue, hr]
      rfl
  intro key
  rw [hget key]
  cases hvalue : values.get? key with
  | none => rfl
  | some =>
    obtain ⟨image, himage⟩ := exists_of_mapValues? hfirst (mem_of_get? hvalue)
    rw [bind_some, himage]
    rfl

lemma Resolved.set (h : Resolved w values K resolved) {key : Text} {text : Text}
    (hknown : (values.get? key).isSome) (hvalue : K key → text = expansion w values key) :
    Resolved w values K (resolved.set key text) := by
  constructor
  · intro other hother
    rw [get?_set]
    split
    · next heq =>
      obtain rfl := heq
      obtain ⟨_, hv⟩ := Option.isSome_iff_exists.1 hknown
      rw [hvalue hother, hv]
      rfl
    exact h.value other hother
  intro other
  rw [get?_set]
  split
  · next heq =>
    rw [← heq, hknown]
    rfl
  exact h.isSome other

lemma Resolved.readFile {after : Dict Text Text} (h : Resolved w values K resolved) {v : Variable}
    (hv : v.type = "file".toList → ¬ K v.key)
    (hread : readFileVariable out resolved v = .ok after) : Resolved w values K after := by
  unfold readFileVariable at hread
  by_cases htype : v.type = "file".toList
  · rw [if_neg (not_not.2 htype)] at hread
    cases hget : resolved.get? v.key with
    | none =>
      rw [hget] at hread
      obtain rfl := ok.inj hread
      exact h
    | some =>
      have hset : ∀ text, Resolved w values K (resolved.set v.key text) := by
        intro text
        apply h.set
        · rw [← h.isSome, hget]
          rfl
        exact fun hkey => absurd hkey (hv htype)
      rw [hget] at hread
      simp only at hread
      split at hread
      · obtain rfl := ok.inj hread
        exact hset []
      split at hread
      · cases hread
      · obtain rfl := ok.inj hread
        exact hset _
      all_goals
        split at hread
        · cases hread
        obtain rfl := ok.inj hread
        exact hset []
  rw [if_pos htype] at hread
  obtain rfl := ok.inj hread
  exact h

lemma Resolved.readFiles {after : Dict Text Text} (h : Resolved w values K resolved)
    {vars : List Variable} (hvars : ∀ v ∈ vars, v.type = "file".toList → ¬ K v.key)
    (hread : vars.foldlM (readFileVariable out) resolved = .ok after) : Resolved w values K after := by
  induction vars generalizing resolved with
  | nil =>
    obtain rfl := ok.inj hread
    exact h
  | cons v rest ih =>
    rw [foldlM_cons] at hread
    cases hfirst : readFileVariable out resolved v with
    | error =>
      rw [hfirst] at hread
      cases hread
    | ok =>
      rw [hfirst] at hread
      exact ih (h.readFile (hvars v mem_cons_self) hfirst)
        (fun u hu => hvars u (mem_cons_of_mem v hu)) hread

lemma WellOrdered.resolved_second (h : WellOrdered w values K rank) {fileKeys : List Text}
    {entries : List (Text × Text)} {after : Dict Text Text}
    (hresolved : Resolved w values K resolved)
    (hentries : ∀ entry ∈ entries, values.get? entry.1 = some entry.2)
    (hsecond : entries.foldlM (secondStep w fuel fileKeys) resolved = some after) :
    Resolved w values K after := by
  induction entries generalizing resolved with
  | nil =>
    obtain rfl := some.inj hsecond
    exact hresolved
  | cons entry rest ih =>
    rw [foldlM_cons] at hsecond
    obtain ⟨_, hnext, hrest⟩ := bind_eq_some_iff.1 hsecond
    refine ih ?_ (fun e he => hentries e (mem_cons_of_mem _ he)) hrest
    have hentry := hentries entry mem_cons_self
    unfold secondStep at hnext
    split_ifs at hnext
    · obtain rfl := some.inj hnext
      exact hresolved
    obtain ⟨r, hr, hrnext⟩ := Option.map_eq_some_iff.1 hnext
    cases r with
    | error =>
      obtain rfl := hrnext
      exact hresolved
    | ok =>
      obtain rfl := hrnext
      apply hresolved.set
      · rw [hentry]
        rfl
      intro hkey
      obtain ⟨_, henough⟩ := h.second hresolved hkey hentry
      exact ok.inj (resolveNestedValue_det hr henough)

/-- **What `resolve_placeholders` returns** for a text that refers to the keys in
`K`; the other variables do not matter. -/
theorem resolvePlaceholders_on {content result : Text} {pool : Dict Text Value}
    {vars : List Variable} {sharedWs : Bool} (hkeys : pool.keys.Nodup)
    (h : WellOrdered w (texts pool) K rank) (hcontent : Clear w content)
    (hK : ∀ key, .hole key ∈ scan w content → K key)
    (hfiles : ∀ v ∈ vars, v.type = "file".toList → ¬ K v.key)
    (hlists : findIter (listAt w) content = []) (hdicts : findIter (dictAt w) content = [])
    (hresult : resolvePlaceholders w out fuel content pool vars sharedWs = some (.ok result)) :
    result = subPieces (substitute (texts pool) (expansion w (texts pool))) (scan w content) := by
  unfold resolvePlaceholders at hresult
  by_cases hempty : content = [] ∨ pool = []
  · rw [if_pos hempty] at hresult
    obtain rfl := ok.inj (some.inj hresult)
    have hplain : NoKnown w (texts pool) content := by
      rcases hempty with rfl | rfl
      · exact nofun
      exact fun key _ => rfl
    rw [subPieces_noKnown hplain]
  rw [if_neg hempty] at hresult
  obtain ⟨_, hfirst, hresult⟩ := bind_eq_some_iff.1 hresult
  split at hresult
  · cases hresult
  next files hread =>
  have hfilesResolved : Resolved w (texts pool) K files := by
    split at hread
    · exact (h.resolved_first hfirst).readFiles hfiles hread
    obtain rfl := ok.inj hread
    exact h.resolved_first hfirst
  obtain ⟨resolved, hsecond, hresult⟩ := bind_eq_some_iff.1 hresult
  have hentries : ∀ entry ∈ texts pool, (texts pool).get? entry.1 = some entry.2 := by
    intro entry hmem
    have hnodup : (texts pool).keys.Nodup := by
      rw [Dict.keys, texts, mapValues, map_map]
      exact hkeys
    exact get?_of_mem hnodup hmem
  have hresolved := h.resolved_second hfilesResolved hentries hsecond
  simp only [listPass_skip out resolved hlists, dictPass_skip out resolved hdicts] at hresult
  obtain rfl := ok.inj (some.inj hresult)
  exact lastPass_eq hcontent (h.expanded hK) (fun key hkey => hresolved.value key (hK key hkey))

end

/-! ## The rounds of the first resolver -/

/-- The keys that a text refers to, itself or through values. -/
inductive Refers (w : WordClass) (values : Dict Text Text) (text : Text) : Text → Prop
  | here {key : Text} (h : .hole key ∈ scan w text) : Refers w values text key
  | through {key value other : Text} (h : Refers w values text key)
      (hvalue : values.get? key = some value) (hother : .hole other ∈ scan w value) :
      Refers w values text other

section
variable {w : WordClass} {values : Dict Text Text} {text : Text}

lemma substituteKnown_eq (text : Text) :
    substituteKnown w values text = expandDepth w values 1 text := by
  rw [substituteKnown, expandDepth]
  apply subPieces_congr
  intro key _
  cases values.get? key with
  | _ => rfl

lemma staticRounds_eq (n : Nat) (text : Text) :
    staticRounds w values n text = (substituteKnown w values)^[n] text := by
  induction n generalizing text with
  | zero => rfl
  | succ n ih =>
    rw [staticRounds, Function.iterate_succ_apply]
    split
    · exact ih (substituteKnown w values text)
    next hchanged =>
    have hsame : substituteKnown w values text = text := by
      have hplain : ∀ key, .hole key ∈ scan w text →
          (values.get? key).getD (placeholder key) = placeholder key := by
        intro key hkey
        cases hvalue : values.get? key with
        | none => rfl
        | some =>
          apply absurd _ hchanged
          exact any_eq_true.2 ⟨key, mem_holes.2 hkey, by rw [hvalue]; rfl⟩
      rw [substituteKnown, subPieces_congr hplain, subPieces_placeholder]
    rw [hsame, Function.iterate_fixed hsame]

/-- Clear texts: the text itself and the values that it refers to. -/
structure ClearFrom (w : WordClass) (values : Dict Text Text) (text : Text) : Prop where
  own : Clear w text
  referred : ∀ key value, Refers w values text key → values.get? key = some value → Clear w value

lemma ClearFrom.value (h : ClearFrom w values text) {key value : Text}
    (hkey : Refers w values text key) (hvalue : values.get? key = some value) :
    ClearFrom w values value := by
  have hthrough : ∀ other, Refers w values value other → Refers w values text other := by
    intro other hother
    induction hother with
    | here hmem => exact .through hkey hvalue hmem
    | through _ hv hmem ih => exact .through ih hv hmem
  exact ⟨h.referred key value hkey hvalue, fun other v hother => h.referred other v (hthrough other hother)⟩

lemma expandDepth_succ (n : Nat) (text : Text) :
    expandDepth w values (n + 1) text = subPieces (fun key =>
      ((values.get? key).map (expandDepth w values n)).getD (placeholder key)) (scan w text) := rfl

lemma ClearFrom.sealed (h : ClearFrom w values text) (n : Nat) :
    Sealed w (expandDepth w values n text)
      ∧ ∀ key, .hole key ∈ scan w text →
        Sealed w (((values.get? key).map (expandDepth w values n)).getD (placeholder key)) := by
  induction n generalizing text with
  | zero =>
    have hself : ∀ other : Text, Clear w other → Sealed w other := by
      intro other hother
      have := (hother.scan_subPieces (f := placeholder)
        (fun key hkey => Sealed.placeholder (isKey_of_mem_scan hkey))).2
      rwa [subPieces_placeholder] at this
    refine ⟨hself text h.own, fun key hkey => ?_⟩
    cases hvalue : values.get? key with
    | none => exact Sealed.placeholder (isKey_of_mem_scan hkey)
    | some value => exact hself value (h.referred key value (.here hkey) hvalue)
  | succ n ih =>
    refine ⟨(h.own.scan_subPieces (ih h).2).2, fun key hkey => ?_⟩
    cases hvalue : values.get? key with
    | none => exact Sealed.placeholder (isKey_of_mem_scan hkey)
    | some value =>
      have hclear := h.value (.here hkey) hvalue
      exact (hclear.own.scan_subPieces (ih hclear).2).2

lemma ClearFrom.substituteKnown (h : ClearFrom w values text) (n : Nat) :
    substituteKnown w values (expandDepth w values n text) = expandDepth w values (n + 1) text := by
  induction n generalizing text with
  | zero => exact substituteKnown_eq text
  | succ n ih =>
    rw [Placeholders.substituteKnown, expandDepth_succ,
      (h.own.scan_subPieces (h.sealed n).2).1, expandDepth_succ, subPieces, subPieces,
      flatMap_assoc]
    apply flatMap_congr
    intro piece hpiece
    cases piece with
    | chr => rfl
    | hole key =>
      show Placeholders.substituteKnown w values
          (((values.get? key).map (expandDepth w values n)).getD (placeholder key))
        = ((values.get? key).map (expandDepth w values (n + 1))).getD (placeholder key)
      cases hvalue : values.get? key with
      | none =>
        show subPieces _ (scan w (placeholder key)) = placeholder key
        rw [scan_placeholder (isKey_of_mem_scan hpiece)]
        show (values.get? key).getD (placeholder key) ++ [] = placeholder key
        rw [hvalue, append_nil]
        rfl
      | some value => exact ih (h.value (.here hpiece) hvalue)

lemma ClearFrom.staticRounds (h : ClearFrom w values text) (n : Nat) :
    staticRounds w values n text = expandDepth w values n text := by
  rw [staticRounds_eq]
  induction n with
  | zero => rfl
  | succ n ih => rw [Function.iterate_succ_apply', ih, h.substituteKnown]

variable {n : Nat}

lemma ClearFrom.noHole_succ (h : ClearFrom w values text)
    (hnone : NoHole w (expandDepth w values (n + 1) text)) {key : Text}
    (hkey : .hole key ∈ scan w text) :
    ∃ value, values.get? key = some value ∧ NoHole w (expandDepth w values n value) := by
  have hholes : ∀ other, _ := fun other => @Clear.mem_scan_subPieces w _ h.own _ (h.sealed n).2 other
  cases hvalue : values.get? key with
  | none =>
    apply absurd _ (hnone key)
    refine (hholes key).2 ⟨key, hkey, ?_⟩
    rw [hvalue]
    show _ ∈ scan w (placeholder key)
    rw [scan_placeholder (isKey_of_mem_scan hkey)]
    exact mem_singleton_self _
  | some value =>
    refine ⟨value, rfl, fun other hother => hnone other ?_⟩
    refine (hholes other).2 ⟨key, hkey, ?_⟩
    rw [hvalue]
    exact hother

lemma ClearFrom.known (h : ClearFrom w values text)
    (hnone : NoHole w (expandDepth w values (n + 1) text)) {key : Text}
    (hkey : Refers w values text key) :
    ∃ value m, values.get? key = some value ∧ m ≤ n ∧ NoHole w (expandDepth w values m value) := by
  induction hkey with
  | here hmem =>
    obtain ⟨value, hvalue, hleft⟩ := h.noHole_succ hnone hmem
    exact ⟨value, n, hvalue, Nat.le_refl n, hleft⟩
  | @through key value other hkey hvalue hother ih =>
    obtain ⟨_, m, hv, hm, hleft⟩ := ih
    obtain rfl := some.inj (hvalue.symm.trans hv)
    cases m with
    | zero => exact absurd hother (hleft other)
    | succ m =>
      obtain ⟨u, hu, hless⟩ := (h.value hkey hvalue).noHole_succ hleft hother
      exact ⟨u, m, hu, Nat.le_of_succ_le hm, hless⟩

noncomputable def nesting (w : WordClass) (values : Dict Text Text) (key : Text) : Nat :=
  sInf {n | ∀ value, values.get? key = some value → NoHole w (expandDepth w values n value)}

lemma ClearFrom.ranked (h : ClearFrom w values text) (hn : n ≤ maxResolveDepth)
    (hnone : NoHole w (expandDepth w values (n + 1) text)) :
    Ranked w values (Refers w values text) (nesting w values)
      ∧ ∀ key, Refers w values text key → nesting w values key ≤ n := by
  have hle : ∀ key value m, values.get? key = some value → NoHole w (expandDepth w values m value) →
      nesting w values key ≤ m := by
    intro key value m hvalue hleft
    apply Nat.sInf_le
    intro v hv
    obtain rfl := some.inj (hvalue.symm.trans hv)
    exact hleft
  have hbound : ∀ key, Refers w values text key → nesting w values key ≤ n := by
    intro key hkey
    obtain ⟨value, m, hvalue, hm, hleft⟩ := h.known hnone hkey
    exact le_trans (hle key value m hvalue hleft) hm
  refine ⟨⟨fun key _ hkey _ => le_trans (hbound key hkey) hn, ?_,
    fun key value hkey hvalue other hother => .through hkey hvalue hother⟩, hbound⟩
  intro key value hkey hvalue other hother _
  obtain ⟨v, m, hv, -, hleft⟩ := h.known hnone hkey
  obtain rfl := some.inj (hvalue.symm.trans hv)
  have hself : ∀ u, values.get? key = some u →
      NoHole w (expandDepth w values (nesting w values key) u) := by
    have hmem : m ∈ {n | ∀ u, values.get? key = some u → NoHole w (expandDepth w values n u)} := by
      intro u hu
      obtain rfl := some.inj (hvalue.symm.trans hu)
      exact hleft
    exact Nat.sInf_mem ⟨m, hmem⟩
  have hnow := hself value hvalue
  cases hdeep : nesting w values key with
  | zero =>
    rw [hdeep] at hnow
    exact absurd hother (hnow other)
  | succ k =>
    rw [hdeep] at hnow
    obtain ⟨u, hu, hless⟩ := (h.value hkey hvalue).noHole_succ hnow hother
    exact Nat.lt_succ_of_le (hle other u k hu hless)

lemma ClearFrom.expandDepth_eq (h : ClearFrom w values text) (hn : n < maxResolveDepth)
    (hnone : NoHole w (expandDepth w values (n + 1) text)) : expandDepth w values (n + 1) text
      = subPieces (substitute values (expansion w values)) (scan w text) := by
  obtain ⟨hranked, hbound⟩ := h.ranked (Nat.le_of_lt hn) hnone
  rw [expandDepth_succ]
  apply subPieces_congr
  intro key hkey
  cases hvalue : values.get? key with
  | none => rw [substitute_unknown hvalue]; rfl
  | some value =>
    have hrefers : Refers w values text key := .here hkey
    have hstable : ∀ m, n ≤ m → expandDepth w values n value = expandDepth w values m value := by
      intro m hle
      induction m, hle using Nat.le_induction with
      | base => rfl
      | succ m hle ih =>
        rw [ih]
        apply expandDepth_stable hranked _ (hranked.closed key value hrefers hvalue)
        intro other hother hknown
        have := hranked.below key value hrefers hvalue other hother hknown
        have := hbound key hrefers
        omega
    rw [substitute_known (by rw [hvalue]; rfl), expansion, hvalue]
    exact hstable (maxResolveDepth + 1) (by omega)

end

/-! ## The two resolvers -/

section
variable {w : WordClass} {out : Outside} {frozen : Text} {sharedWs : Bool} {fuel : Nat}
  {parameters : Dict Text Value}

lemma resolveStaticValue_eq {frozenValues : Dict Text Text} {text : Text} {field : String}
    (hclear : ClearFrom w frozenValues text)
    (hfrozen : resolveStaticValue w frozenValues text field = .ok frozen) {pool : Dict Text Value}
    (hkeys : pool.keys.Nodup)
    (hsame : ∀ key, Refers w frozenValues text key → (texts pool).get? key = frozenValues.get? key)
    {vars : List Variable}
    (hfiles : ∀ v ∈ vars, v.type = "file".toList → ¬ Refers w frozenValues text v.key)
    (hlists : findIter (listAt w) text = []) (hdicts : findIter (dictAt w) text = [])
    {result : Text}
    (hresult : resolvePlaceholders w out fuel text pool vars sharedWs = some (.ok result)) :
    result = frozen := by
  have hrounds : frozen = expandDepth w frozenValues 10 text
      ∧ NoHole w (expandDepth w frozenValues 10 text) := by
    unfold resolveStaticValue at hfrozen
    simp only [hclear.staticRounds] at hfrozen
    split at hfrozen
    · cases hfrozen
    next hnone =>
    rw [Option.not_isSome_iff_eq_none] at hnone
    exact ⟨(ok.inj hfrozen).symm, search_none_iff.1 hnone⟩
  obtain ⟨hranked, -⟩ := hclear.ranked (by decide : 9 ≤ maxResolveDepth) hrounds.2
  have hknown : ∀ key, Refers w frozenValues text key → ∃ value, frozenValues.get? key = some value := by
    intro key hkey
    obtain ⟨value, -, hvalue, -⟩ := hclear.known (n := 9) hrounds.2 hkey
    exact ⟨value, hvalue⟩
  -- nothing that is referred to stops the loop
  have hblocks : ∀ key, Blocks w (texts pool) key → ¬ Refers w frozenValues text key := by
    intro key hstops
    induction hstops with
    | unknown hnone =>
      intro hkey
      obtain ⟨value, hvalue⟩ := hknown _ hkey
      rw [hsame _ hkey, hvalue] at hnone
      cases hnone
    | nested hvalue hother _ ih =>
      intro hkey
      rw [hsame _ hkey] at hvalue
      exact ih (.through hkey hvalue hother)
  have hwell : WellOrdered w (texts pool) (Refers w frozenValues text) (nesting w frozenValues) := by
    constructor
    · constructor
      · intro key value hkey hvalue
        rw [hsame key hkey] at hvalue
        exact hranked.bound key value hkey hvalue
      · intro key value hkey hvalue other hother _
        rw [hsame key hkey] at hvalue
        obtain ⟨u, hu⟩ := hknown other (.through hkey hvalue hother)
        exact hranked.below key value hkey hvalue other hother (by rw [hu]; rfl)
      intro key value hkey hvalue other hother
      rw [hsame key hkey] at hvalue
      exact .through hkey hvalue hother
    · intro key value hkey hvalue
      rw [hsame key hkey] at hvalue
      exact hclear.referred key value hkey hvalue
    intro key value hkey hvalue _ other _ hsplit hstops
    rw [hsame key hkey] at hvalue
    have hmem : .hole other ∈ scan w value := by
      rw [hsplit]
      exact mem_append_right _ mem_cons_self
    exact absurd (.through hkey hvalue hmem) (hblocks other hstops)
  have hexpansion : ∀ key, Refers w frozenValues text key →
      expansion w (texts pool) key = expansion w frozenValues key := by
    intro key hkey
    induction hrank : nesting w frozenValues key using Nat.strong_induction_on generalizing key with
    | _ n ih =>
      obtain ⟨value, hvalue⟩ := hknown key hkey
      rw [expansion_eq hranked hkey hvalue, expansion_eq hwell.ranked hkey (hsame key hkey ▸ hvalue)]
      apply subPieces_congr
      intro other hother
      have hthrough := Refers.through hkey hvalue hother
      obtain ⟨u, hu⟩ := hknown other hthrough
      have hsome : (frozenValues.get? other).isSome := by rw [hu]; rfl
      rw [substitute_known hsome, substitute_known (by rw [hsame other hthrough]; exact hsome)]
      exact ih _ (hrank ▸ hranked.below key value hkey hvalue other hother hsome) other hthrough rfl
  rw [resolvePlaceholders_on hkeys hwell hclear.own (fun key hkey => .here hkey) hfiles hlists hdicts
    hresult, hrounds.1, hclear.expandDepth_eq (by decide : 9 < maxResolveDepth) hrounds.2]
  apply subPieces_congr
  intro key hkey
  obtain ⟨value, hvalue⟩ := hknown key (.here hkey)
  have hsome : (frozenValues.get? key).isSome := by rw [hvalue]; rfl
  rw [substitute_known hsome, substitute_known (by rw [hsame key (.here hkey)]; exact hsome),
    hexpansion key (.here hkey)]

lemma get?_freezeValues (vars : List Variable) (hkeys : parameters.keys.Nodup) {key : Text}
    {value : Value} (hvalue : parameters.get? key = some value) :
    (freezeValues vars parameters).get? key = some (shownText value) := by
  have hget : (parameters.mapValues (fun _ v => shownText v)).get? key = some (shownText value) := by
    rw [get?_mapValues, hvalue]
    rfl
  have hwritten : (parameters.mapValues (fun _ v => shownText v)).written key
      = some (shownText value) := by
    have hnodup : (parameters.mapValues (fun _ v => shownText v)).keys.Nodup := by
      rw [Dict.keys, mapValues, map_map]
      exact hkeys
    rw [written_eq_get? hnodup, hget]
  rw [freezeValues, get?_update, hwritten]
  rfl

/-- The conditions on one text of the node. -/
structure Agrees (w : WordClass) (vars : List Variable) (parameters : Dict Text Value)
    (text : Text) : Prop where
  clear : ClearFrom w (freezeValues vars parameters) text
  given : ∀ key, Refers w (freezeValues vars parameters) text key →
    ∃ value, parameters.get? key = some value ∧ shownText value = placeholderText value
  noFile : ∀ v ∈ vars, v.type = "file".toList →
    ¬ Refers w (freezeValues vars parameters) text v.key
  noIndex : findIter (listAt w) text = []
  noField : findIter (dictAt w) text = []

lemma Agrees.eq {vars : List Variable} {values : Dict Text Value} {text : Text} {field : String}
    (h : Agrees w vars parameters text) (hparameters : parameters.keys.Nodup)
    (hvalues : values.keys.Nodup) (hsame : ∀ key, Refers w (freezeValues vars parameters) text key →
      values.get? key = parameters.get? key)
    (hfrozen : resolveStaticValue w (freezeValues vars parameters) text field = .ok frozen)
    {result : Text}
    (hresult : resolvePlaceholders w out fuel text values vars sharedWs = some (.ok result)) :
    result = frozen := by
  apply resolveStaticValue_eq h.clear hfrozen hvalues _ h.noFile h.noIndex h.noField hresult
  intro key hkey
  obtain ⟨_, hvalue, hshown⟩ := h.given key hkey
  rw [get?_freezeValues vars hparameters hvalue, texts, get?_mapValues, hsame key hkey, hvalue,
    hshown]
  rfl

end

/-! ### A model that is a variable -/

/-- The declared variable `m` with a default. -/
def modelVariable : Variable :=
  { key := ['m'], type := "text".toList, required := false, default := .text ['d'] }

/-- An agent whose type is the variable `m`. -/
def modelNode : AgentNode := { agentType := placeholder ['m'], modelOverride := [] }

lemma isKey_m : IsKey asciiWords ['m'] := ⟨by decide, all_eq_true.1 rfl⟩

lemma refers_model {text : Text} (hown : ∀ key, .hole key ∈ scan asciiWords text → key = ['m'])
    {key : Text} (h : Refers asciiWords (freezeValues [modelVariable] [(['m'], .text ['g'])]) text key) :
    key = ['m'] := by
  induction h with
  | here hmem => exact hown _ hmem
  | @through k value other _ hvalue hother ih =>
    subst ih
    have hg : (freezeValues [modelVariable] [(['m'], .text ['g'])]).get? ['m'] = some ['g'] := by decide
    obtain rfl := some.inj (hg.symm.trans hvalue)
    exact absurd hother (search_none_iff.1 (by decide) other)

lemma agrees_model {text : Text} (hclear : Clear asciiWords text)
    (hown : ∀ key, .hole key ∈ scan asciiWords text → key = ['m'])
    (hlists : findIter (listAt asciiWords) text = []) (hdicts : findIter (dictAt asciiWords) text = []) :
    Agrees asciiWords [modelVariable] [(['m'], .text ['g'])] text := by
  have hg : (freezeValues [modelVariable] [(['m'], .text ['g'])]).get? ['m'] = some ['g'] := by decide
  constructor
  · refine ⟨hclear, fun key _ hkey hvalue => ?_⟩
    obtain rfl := refers_model hown hkey
    obtain rfl := some.inj (hg.symm.trans hvalue)
    exact .text (Sealed.of_ne (by decide)) (search_none_iff.1 (by decide))
  · intro key hkey
    obtain rfl := refers_model hown hkey
    exact ⟨.text ['g'], by decide, rfl⟩
  · intro _ hv htype
    obtain rfl := mem_singleton.1 hv
    cases htype
  · exact hlists
  exact hdicts

end DeterminFlow.Workflow.Placeholders
