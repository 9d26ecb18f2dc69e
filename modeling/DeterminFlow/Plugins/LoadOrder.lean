/-
  Plugins.LoadOrder
  **THE LOAD ORDER OF EXTENSIONS.**

  `_resolve_dependencies` visits the enabled extensions depth first;
  `_load_and_register` goes through the order and registers what it can.
-/
import DeterminFlow.Library.Dict
import Mathlib.Logic.Relation

namespace DeterminFlow.Plugins.Extensions

open Library List Option Dict

/-! ## Manifests and states -/

inductive Status where
  | disabled
  | discovered
  | loaded
  | starting
  | running
  | degraded
  | blocked
  | missing
  deriving DecidableEq

def Status.idle : Status → Bool
  | .disabled | .discovered | .degraded | .missing => true
  | _ => false

structure ExtensionState where
  status : Status
  error : String := ""
  deriving DecidableEq

def extensionApiVersion : String := "1"

structure ExtensionManifest where
  apiVersion : String := extensionApiVersion
  dependencies : List String := []
  deriving DecidableEq

/-- What `_resolve_dependencies` reads and writes. -/
structure Registry where
  manifests : Dict String ExtensionManifest
  states : Dict String ExtensionState
  visited : List String := []
  order : List String := []

/-- An error of the strict mode; `fuel` marks a visit that was cut off. -/
inductive Failure where
  | fuel
  | valueError (message : String)
  deriving DecidableEq

namespace Registry

def setState (r : Registry) (id : String) (status : Status) (error : String := "") : Registry :=
  { r with states := r.states.set id { status := status, error := error } }

def status (r : Registry) (id : String) : Option Status := (r.states.get? id).map (·.status)

/-- `visited.add`, `order.append` -/
def append (r : Registry) (id : String) : Registry :=
  { r with visited := id :: r.visited, order := r.order ++ [id] }

end Registry

section
variable (strict : Bool)
  /- `_load_entry_point`: an exception, or the manifest of the entry point, if there is one -/
  (load : String → Except String (Option ExtensionManifest))

def degrade (r : Registry) (id exc : String) : Except Failure Registry :=
  if strict then .error (.valueError exc)
  else .ok ((r.append id).setState id .degraded ("扩展加载失败: " ++ exc))

def entered (r : Registry) (id : String) (found : Option ExtensionManifest) : Registry :=
  match found with
  | none => r
  | some manifest => { r with manifests := r.manifests.set id manifest }

def listed (r : Registry) (id : String) : Registry :=
  if (r.append id).status id = some .disabled then (r.append id).setState id .discovered
  else r.append id

def visit : Nat → List String → String → Registry → Except Failure Registry
  | 0, _, _, _ => .error .fuel
  | fuel + 1, visiting, id, r =>
    if id ∈ r.visited then .ok r
    else if id ∈ visiting then
      if strict then .error (.valueError ("扩展依赖形成环: " ++ id))
      else .ok (r.setState id .degraded ("扩展依赖形成环: " ++ id))
    else
      match r.manifests.get? id with
      | none =>
        if strict then .error (.valueError ("缺少扩展依赖: " ++ id))
        else
          .ok { r.setState id .missing "被已启用 Plugin 依赖，但尚未安装" with
            manifests := r.manifests.set id {}
            visited := id :: r.visited }
      | some _ =>
        if r.status id = some .degraded then
          if strict then
            .error (.valueError (((r.states.get? id).map (·.error)).getD ""))
          else .ok (r.append id)
        else
          match load id with
          | .error exc => degrade strict r id exc
          | .ok found =>
            let manifest := ((entered r id found).manifests.get? id).getD {}
            if manifest.apiVersion ≠ extensionApiVersion then
              degrade strict (entered r id found) id
                ("扩展 " ++ id ++ " API 版本不兼容: " ++ manifest.apiVersion ++ " != "
                  ++ extensionApiVersion)
            else
              match manifest.dependencies.foldlM
                  (fun r dependency => visit fuel (id :: visiting) dependency r)
                  (entered r id found) with
              | .error e => .error e
              | .ok r => .ok (listed r id)

/-- `_resolve_dependencies` -/
def resolve (requested : List String) (r : Registry) : Except Failure Registry :=
  requested.foldlM (fun acc id => visit strict load (r.manifests.length + 1) [] id acc) r

end

/-! ## The visit -/

section
variable {strict : Bool} {load : String → Except String (Option ExtensionManifest)}
  (start : Registry)

def manifestOf (load : String → Except String (Option ExtensionManifest)) (start : Registry)
    (id : String) : ExtensionManifest :=
  match load id with
  | .ok (some manifest) => manifest
  | _ => (start.manifests.get? id).getD {}

/-- An extension loads: it is no degraded one, and its manifest fits. -/
structure Regular (load : String → Except String (Option ExtensionManifest)) (start : Registry)
    (id : String) : Prop where
  sound : start.status id ≠ some .degraded
  loads : ∃ found, load id = .ok found
  version : (manifestOf load start id).apiVersion = extensionApiVersion

def DependsOn (load : String → Except String (Option ExtensionManifest)) (start : Registry)
    (id dependency : String) : Prop :=
  dependency ∈ (manifestOf load start id).dependencies

def Before (l : List String) (a b : String) : Prop := ∃ pre post, l = pre ++ b :: post ∧ a ∈ pre

lemma Before.append {l : List String} {a b : String} (h : Before l a b) (c : String) :
    Before (l ++ [c]) a b := by
  obtain ⟨pre, post, rfl, ha⟩ := h
  exact ⟨pre, post ++ [c], by simp, ha⟩

/-- **The invariant of the visit.** -/
structure Good (load : String → Except String (Option ExtensionManifest)) (start : Registry)
    (visiting : List String) (r : Registry) : Prop where
  nodup : r.order.Nodup
  listed : ∀ x ∈ r.visited, x ∈ r.order ∨ start.manifests.get? x = none
  visited : ∀ x ∈ r.order, x ∈ r.visited
  apart : ∀ x ∈ visiting, x ∉ r.visited
  manifests : ∀ x, x ∉ r.visited → x ∉ visiting → r.manifests.get? x = start.manifests.get? x
  states : ∀ x, x ∉ r.visited → x ∉ visiting → r.states.get? x = start.states.get? x
  after : ∀ x ∈ r.order, Regular load start x → ∀ d, DependsOn load start x d →
    Before r.order d x ∨ start.manifests.get? d = none
      ∨ (Relation.TransGen (DependsOn load start) x x ∧ d ∈ visiting ++ r.visited
        ∧ r.status d = some .degraded)
  degraded : ∀ x ∈ r.order, ¬ Regular load start x → r.status x = some .degraded
  kept : ∀ x ∈ visiting ++ r.order, Regular load start x →
    r.manifests.get? x = some (manifestOf load start x)
  known : ∀ x ∈ r.order, start.manifests.get? x ≠ none
  idle : ∀ x status, r.status x = some status → status.idle = true

/-- What a visit keeps. -/
structure Grows (visiting : List String) (r r' : Registry) : Prop where
  visited : ∀ x ∈ r.visited, x ∈ r'.visited
  degraded : ∀ x ∈ visiting ++ r.visited, r.status x = some .degraded → r'.status x = some .degraded

variable {start} {visiting : List String} {r r' r'' : Registry}

lemma Grows.refl : Grows visiting r r := ⟨fun _ h => h, fun _ _ h => h⟩

lemma Grows.trans (h : Grows visiting r r') (h' : Grows visiting r' r'') : Grows visiting r r'' := by
  refine ⟨fun x hx => h'.visited x (h.visited x hx), fun x hx hdegraded => ?_⟩
  apply h'.degraded x _ (h.degraded x hx hdegraded)
  rcases mem_append.1 hx with hv | hv
  · exact mem_append_left _ hv
  exact mem_append_right _ (h.visited x hv)

lemma status_setState (r : Registry) (id : String) (status : Status) (error : String)
    (other : String) :
    (r.setState id status error).status other = if other = id then some status else r.status other := by
  unfold Registry.setState Registry.status
  simp only
  rw [get?_set]
  by_cases heq : other = id
  · rw [if_pos heq, if_pos heq.symm]
    rfl
  rw [if_neg heq, if_neg (Ne.symm heq)]

lemma Good.after_mono (h : Good load start visiting r) {order seen : List String}
    (horder : ∀ d x, Before r.order d x → Before order d x)
    (hvisited : ∀ d ∈ visiting ++ r.visited, d ∈ seen)
    (hdegraded : ∀ d ∈ visiting ++ r.visited, r.status d = some .degraded →
      r'.status d = some .degraded) :
    ∀ x ∈ r.order, Regular load start x → ∀ d, DependsOn load start x d →
      Before order d x ∨ start.manifests.get? d = none
        ∨ (Relation.TransGen (DependsOn load start) x x ∧ d ∈ seen
          ∧ r'.status d = some .degraded) := by
  intro x hx hregular d hd
  rcases h.after x hx hregular d hd with hbefore | hmissing | ⟨hcycle, hmem, hdeg⟩
  · exact .inl (horder d x hbefore)
  · exact .inr (.inl hmissing)
  exact .inr (.inr ⟨hcycle, hvisited d hmem, hdegraded d hmem hdeg⟩)

lemma Good.cycle (h : Good load start visiting r) {id : String} (hid : id ∈ visiting)
    (error : String) : Good load start visiting (r.setState id .degraded error) := by
  have hkept : ∀ d, r.status d = some .degraded →
      (r.setState id .degraded error).status d = some .degraded := by
    intro d hd
    rw [status_setState]
    split
    · rfl
    exact hd
  constructor
  · exact h.nodup
  · exact h.listed
  · exact h.visited
  · exact h.apart
  · exact h.manifests
  · intro x hx hv
    show Dict.get? (r.states.set id _) x = _
    rw [get?_set_ne r.states _ (fun heq : id = x => hv (heq ▸ hid))]
    exact h.states x hx hv
  · exact h.after_mono (fun _ _ hb => hb) (fun _ hd => hd) (fun d _ hd => hkept d hd)
  · exact fun x hx hirregular => hkept x (h.degraded x hx hirregular)
  · exact h.kept
  · exact h.known
  intro x status hx
  rw [status_setState] at hx
  split at hx
  · exact some.inj hx ▸ rfl
  exact h.idle x status hx

lemma Good.missing (h : Good load start visiting r) {id : String} (hid : id ∉ visiting)
    (hnew : id ∉ r.visited) (hnone : start.manifests.get? id = none) (error : String) :
    Good load start visiting { r.setState id .missing error with
      manifests := r.manifests.set id {}, visited := id :: r.visited } := by
  have hkept : ∀ d, d ≠ id → (r.setState id .missing error).status d = r.status d := by
    intro d hd
    rw [status_setState, if_neg hd]
  have hne : ∀ d ∈ visiting ++ r.visited, d ≠ id := by
    rintro d hd rfl
    exact (mem_append.1 hd).elim hid hnew
  have hlisted : ∀ x ∈ r.order, x ≠ id := fun x hx =>
    hne x (mem_append_right _ (h.visited x hx))
  constructor
  · exact h.nodup
  · intro x hx
    rcases mem_cons.1 hx with rfl | hx
    · exact .inr hnone
    exact h.listed x hx
  · exact fun x hx => mem_cons_of_mem _ (h.visited x hx)
  · intro x hx hmem
    rcases mem_cons.1 hmem with rfl | hmem
    · exact hid hx
    exact h.apart x hx hmem
  · intro x hx hv
    obtain ⟨hxid, hx⟩ := not_or.1 (fun hor => hx (mem_cons.2 hor))
    show Dict.get? (r.manifests.set id {}) x = _
    rw [get?_set_ne r.manifests _ (Ne.symm hxid)]
    exact h.manifests x hx hv
  · intro x hx hv
    obtain ⟨hxid, hx⟩ := not_or.1 (fun hor => hx (mem_cons.2 hor))
    show Dict.get? (r.states.set id _) x = _
    rw [get?_set_ne r.states _ (Ne.symm hxid)]
    exact h.states x hx hv
  · apply h.after_mono (fun _ _ hb => hb)
    · intro d hd
      rcases mem_append.1 hd with hd | hd
      · exact mem_append_left _ hd
      exact mem_append_right _ (mem_cons_of_mem _ hd)
    intro d hd hdeg
    exact (hkept d (hne d hd)).trans hdeg
  · intro x hx hirregular
    exact (hkept x (hlisted x hx)).trans (h.degraded x hx hirregular)
  · intro x hx hregular
    have hxid : x ≠ id := by
      rcases mem_append.1 hx with hx | hx
      · exact hne x (mem_append_left _ hx)
      exact hlisted x hx
    show Dict.get? (r.manifests.set id {}) x = _
    rw [get?_set_ne r.manifests _ (Ne.symm hxid)]
    exact h.kept x hx hregular
  · exact h.known
  intro x status hx
  change (r.setState id .missing error).status x = some status at hx
  rw [status_setState] at hx
  split at hx
  · exact some.inj hx ▸ rfl
  exact h.idle x status hx

lemma Good.enter (h : Good load start visiting r) {id : String} (hid : id ∉ visiting)
    (hnew : id ∉ r.visited) {next : Registry}
    (hsame : next.visited = r.visited ∧ next.order = r.order ∧ next.states = r.states)
    (hmanifests : ∀ x, x ≠ id → next.manifests.get? x = r.manifests.get? x)
    (hkept : Regular load start id → next.manifests.get? id = some (manifestOf load start id)) :
    Good load start (id :: visiting) next := by
  obtain ⟨hvisited, horder, hstates⟩ := hsame
  have hstatus : ∀ x, next.status x = r.status x := by
    intro x
    unfold Registry.status
    rw [hstates]
  constructor
  · exact horder ▸ h.nodup
  · rw [hvisited, horder]
    exact h.listed
  · rw [hvisited, horder]
    exact h.visited
  · intro x hx
    rw [hvisited]
    rcases mem_cons.1 hx with rfl | hx
    · exact hnew
    exact h.apart x hx
  · intro x hx hv
    obtain ⟨hxid, hv⟩ := not_or.1 (fun hor => hv (mem_cons.2 hor))
    rw [hmanifests x hxid]
    exact h.manifests x (hvisited ▸ hx) hv
  · intro x hx hv
    obtain ⟨-, hv⟩ := not_or.1 (fun hor => hv (mem_cons.2 hor))
    rw [hstates]
    exact h.states x (hvisited ▸ hx) hv
  · rw [horder]
    apply h.after_mono (fun _ _ hb => hb)
    · intro d hd
      rw [hvisited]
      exact mem_cons_of_mem _ hd
    exact fun d _ hdeg => (hstatus d).trans hdeg
  · intro x hx hirregular
    exact (hstatus x).trans (h.degraded x (horder ▸ hx) hirregular)
  · intro x hx hregular
    by_cases hxid : x = id
    · subst hxid
      exact hkept hregular
    rw [hmanifests x hxid]
    apply h.kept x _ hregular
    rw [horder] at hx
    exact (mem_cons.1 hx).resolve_left hxid
  · exact horder ▸ h.known
  exact fun x status hx => h.idle x status ((hstatus x).symm.trans hx)

lemma Good.append {id : String} (h : Good load start (id :: visiting) r) (hid : id ∉ visiting)
    (after : Registry) (hafter : after.visited = id :: r.visited ∧ after.order = r.order ++ [id])
    (hmanifests : after.manifests = r.manifests)
    (hstates : ∀ x, x ≠ id → after.states.get? x = r.states.get? x)
    (hdegraded : ¬ Regular load start id → after.status id = some .degraded)
    (hdependencies : Regular load start id → ∀ d, DependsOn load start id d →
      d ∈ r.order ∨ start.manifests.get? d = none
        ∨ (Relation.TransGen (DependsOn load start) id id ∧ d ∈ id :: (visiting ++ r.visited)
          ∧ after.status d = some .degraded))
    (hself : r.status id = some .degraded → after.status id = some .degraded)
    (hknown : start.manifests.get? id ≠ none)
    (hidle : ∀ status, after.status id = some status → status.idle = true) :
    Good load start visiting after ∧ Grows visiting r after := by
  obtain ⟨hvisited, horder⟩ := hafter
  have hnew : id ∉ r.visited := h.apart id mem_cons_self
  have hstatus : ∀ x, r.status x = some .degraded → after.status x = some .degraded := by
    intro x hx
    by_cases hxid : x = id
    · subst hxid
      exact hself hx
    unfold Registry.status at hx ⊢
    rw [hstates x hxid]
    exact hx
  have hmore : ∀ d ∈ id :: (visiting ++ r.visited), d ∈ visiting ++ after.visited := by
    intro d hd
    rw [hvisited]
    rcases mem_cons.1 hd with rfl | hd
    · exact mem_append_right _ mem_cons_self
    rcases mem_append.1 hd with hd | hd
    · exact mem_append_left _ hd
    exact mem_append_right _ (mem_cons_of_mem _ hd)
  refine ⟨?_, fun x hx => hvisited ▸ mem_cons_of_mem _ hx, fun x _ hdeg => hstatus x hdeg⟩
  constructor
  · rw [horder]
    refine nodup_append.2 ⟨h.nodup, nodup_cons.2 ⟨not_mem_nil, nodup_nil⟩, ?_⟩
    rintro a ha b hb rfl
    exact hnew (mem_singleton.1 hb ▸ h.visited a ha)
  · intro x hx
    rw [hvisited] at hx
    rw [horder]
    rcases mem_cons.1 hx with rfl | hx
    · exact .inl (mem_append_right _ (mem_singleton.2 rfl))
    exact (h.listed x hx).imp (fun hmem => mem_append_left _ hmem) (fun hn => hn)
  · intro x hx
    rw [horder] at hx
    rw [hvisited]
    rcases mem_append.1 hx with hx | hx
    · exact mem_cons_of_mem _ (h.visited x hx)
    exact mem_singleton.1 hx ▸ mem_cons_self
  · intro x hx hmem
    rw [hvisited] at hmem
    rcases mem_cons.1 hmem with rfl | hmem
    · exact hid hx
    exact h.apart x (mem_cons_of_mem _ hx) hmem
  · intro x hx hv
    rw [hvisited] at hx
    obtain ⟨hxid, hx⟩ := not_or.1 (fun hor => hx (mem_cons.2 hor))
    rw [hmanifests]
    exact h.manifests x hx (fun hmem => (mem_cons.1 hmem).elim hxid hv)
  · intro x hx hv
    rw [hvisited] at hx
    obtain ⟨hxid, hx⟩ := not_or.1 (fun hor => hx (mem_cons.2 hor))
    rw [hstates x hxid]
    exact h.states x hx (fun hmem => (mem_cons.1 hmem).elim hxid hv)
  · intro x hx hregular d hd
    rw [horder] at hx
    rcases mem_append.1 hx with hx | hx
    · exact h.after_mono (fun _ _ hb => horder ▸ hb.append id) hmore
        (fun y _ hdeg => hstatus y hdeg) x hx hregular d hd
    obtain rfl := mem_singleton.1 hx
    rcases hdependencies hregular d hd with hmem | hmissing | ⟨hcycle, hmem, hdeg⟩
    · exact .inl ⟨r.order, [], horder, hmem⟩
    · exact .inr (.inl hmissing)
    exact .inr (.inr ⟨hcycle, hmore d hmem, hdeg⟩)
  · intro x hx hirregular
    rw [horder] at hx
    rcases mem_append.1 hx with hx | hx
    · exact hstatus x (h.degraded x hx hirregular)
    exact mem_singleton.1 hx ▸ hdegraded (mem_singleton.1 hx ▸ hirregular)
  · intro x hx hregular
    rw [hmanifests]
    apply h.kept x _ hregular
    rw [horder] at hx
    rcases mem_append.1 hx with hx | hx
    · exact mem_cons_of_mem _ (mem_append_left _ hx)
    rcases mem_append.1 hx with hx | hx
    · exact mem_cons_of_mem _ (mem_append_right _ hx)
    exact mem_singleton.1 hx ▸ mem_cons_self
  · intro x hx
    rw [horder] at hx
    rcases mem_append.1 hx with hx | hx
    · exact h.known x hx
    exact mem_singleton.1 hx ▸ hknown
  intro x status hx
  by_cases hxid : x = id
  · exact hidle status (hxid ▸ hx)
  unfold Registry.status at hx
  rw [hstates x hxid] at hx
  exact h.idle x status hx

lemma Grows.entered {id : String} {found : Option ExtensionManifest} :
    Grows visiting r (entered r id found) := by
  unfold Extensions.entered
  cases found with
  | none => exact Grows.refl
  | some => exact ⟨fun _ h => h, fun _ _ h => h⟩

lemma entered_same (r : Registry) (id : String) (found : Option ExtensionManifest) :
    ((entered r id found).visited = r.visited ∧ (entered r id found).order = r.order
        ∧ (entered r id found).states = r.states)
      ∧ ∀ x, x ≠ id → (entered r id found).manifests.get? x = r.manifests.get? x := by
  unfold entered
  cases found with
  | none => exact ⟨⟨rfl, rfl, rfl⟩, fun _ _ => rfl⟩
  | some =>
    exact ⟨⟨rfl, rfl, rfl⟩, fun x hx => get?_set_ne r.manifests _ (Ne.symm hx)⟩

lemma entered_manifest {id : String} {found : Option ExtensionManifest} {old : ExtensionManifest}
    (hload : load id = .ok found) (hold : r.manifests.get? id = some old)
    (hstart : start.manifests.get? id = some old) :
    (entered r id found).manifests.get? id = some (manifestOf load start id) := by
  unfold entered manifestOf
  rw [hload]
  cases found with
  | none =>
    show r.manifests.get? id = some ((start.manifests.get? id).getD {})
    rw [hold, hstart]
    rfl
  | some manifest => exact (get?_set r.manifests id id manifest).trans (if_pos rfl)

def Visited (load : String → Except String (Option ExtensionManifest)) (start : Registry)
    (visiting : List String) (r : Registry) (ids : List String) (result : Except Failure Registry) :
    Prop :=
  result ≠ .error .fuel ∧ ∀ after, result = .ok after →
    Good load start visiting after ∧ Grows visiting r after
      ∧ ∀ id ∈ ids, id ∈ after.visited ∨ (id ∈ visiting ∧ after.status id = some .degraded)

lemma visited_error {ids : List String} {message : String} :
    Visited load start visiting r ids (.error (.valueError message)) :=
  ⟨fun h => Failure.noConfusion (Except.error.inj h), nofun⟩

lemma visited_ok {ids : List String} {after : Registry} (hgood : Good load start visiting after)
    (hgrows : Grows visiting r after)
    (hids : ∀ id ∈ ids, id ∈ after.visited ∨ (id ∈ visiting ∧ after.status id = some .degraded)) :
    Visited load start visiting r ids (.ok after) := by
  refine ⟨(nofun), fun _ h => ?_⟩
  obtain rfl := Except.ok.inj h
  exact ⟨hgood, hgrows, hids⟩

lemma degrade_visited (h : Good load start visiting r) {id : String} (hid : id ∉ visiting)
    (hnew : id ∉ r.visited) (hknown : start.manifests.get? id ≠ none) (hirregular : ¬ Regular load start id)
    {f : Option ExtensionManifest} (exc : String) :
    Visited load start visiting r [id] (degrade strict (entered r id f) id exc) := by
  unfold degrade
  split
  · exact visited_error
  obtain ⟨hsame, hmanifests⟩ := entered_same r id f
  have hentered : Good load start (id :: visiting) (entered r id f) :=
    h.enter hid hnew hsame hmanifests (fun hregular => absurd hregular hirregular)
  have hstates : ∀ x, x ≠ id →
      (((entered r id f).append id).setState id .degraded ("扩展加载失败: " ++ exc)).states.get? x
        = (entered r id f).states.get? x :=
    fun x hx => get?_set_ne _ _ (Ne.symm hx)
  have hdegraded : (((entered r id f).append id).setState id .degraded
      ("扩展加载失败: " ++ exc)).status id = some .degraded := by
    rw [status_setState, if_pos rfl]
  obtain ⟨hgood, hgrows⟩ := hentered.append hid (((entered r id f).append id).setState
    id .degraded ("扩展加载失败: " ++ exc)) ⟨rfl, rfl⟩ rfl hstates (fun _ => hdegraded)
    (fun hregular => absurd hregular hirregular) (fun _ => hdegraded) hknown
    (fun status hs => some.inj (hdegraded.symm.trans hs) ▸ rfl)
  refine visited_ok hgood (Grows.entered.trans hgrows) (fun x hx => .inl ?_)
  exact mem_singleton.1 hx ▸ mem_cons_self

lemma foldl_visited {fuel : Nat} {ids : List String}
    (hvisit : ∀ id ∈ ids, ∀ r, Good load start visiting r →
      Visited load start visiting r [id] (visit strict load fuel visiting id r))
    (h : Good load start visiting r) : Visited load start visiting r ids
      (ids.foldlM (fun r id => visit strict load fuel visiting id r) r) := by
  induction ids generalizing r with
  | nil => exact visited_ok h Grows.refl (nofun)
  | cons id rest ih =>
    obtain ⟨hfuel, hafter⟩ := hvisit id mem_cons_self r h
    rw [foldlM_cons]
    cases hrun : visit strict load fuel visiting id r with
    | error =>
      refine ⟨fun heq => hfuel ?_, nofun⟩
      rw [hrun]
      exact heq
    | ok next =>
      obtain ⟨hgood, hgrows, hid⟩ := hafter next hrun
      obtain ⟨hlater, hrest⟩ := ih (fun x hx => hvisit x (mem_cons_of_mem _ hx)) hgood
      refine ⟨hlater, fun after heq => ?_⟩
      obtain ⟨hgood', hgrows', hids⟩ := hrest after heq
      refine ⟨hgood', hgrows.trans hgrows', fun x hx => ?_⟩
      rcases mem_cons.1 hx with rfl | hx
      · rcases hid x (mem_singleton.2 rfl) with hmem | ⟨hmem, hdeg⟩
        · exact .inl (hgrows'.visited x hmem)
        exact .inr ⟨hmem, hgrows'.degraded x (mem_append_left _ hmem) hdeg⟩
      exact hids x hx

lemma visit_visited {fuel : Nat} (h : Good load start visiting r) (hnodup : visiting.Nodup)
    (hknown : ∀ v ∈ visiting, v ∈ start.manifests.keys)
    (hfuel : start.manifests.length + 1 ≤ fuel + visiting.length) {id : String}
    (hpath : ∀ v ∈ visiting, Relation.TransGen (DependsOn load start) v id) :
    Visited load start visiting r [id] (visit strict load fuel visiting id r) := by
  induction fuel generalizing visiting r id with
  | zero =>
    have hlength := hnodup.length_le_of_subset hknown
    rw [Dict.keys, length_map] at hlength
    omega
  | succ fuel ih =>
    rw [visit]
    by_cases hvisited : id ∈ r.visited
    · rw [if_pos hvisited]
      exact visited_ok h Grows.refl (fun x hx => .inl (mem_singleton.1 hx ▸ hvisited))
    rw [if_neg hvisited]
    by_cases hcycle : id ∈ visiting
    · rw [if_pos hcycle]
      split
      · exact visited_error
      have hdegraded : (r.setState id .degraded ("扩展依赖形成环: " ++ id)).status id
          = some .degraded := by rw [status_setState, if_pos rfl]
      refine visited_ok (h.cycle hcycle _) ⟨fun _ hx => hx, fun x _ hx => ?_⟩ (fun x hx => .inr ?_)
      · rw [status_setState]
        split
        · rfl
        exact hx
      obtain rfl := mem_singleton.1 hx
      exact ⟨hcycle, hdegraded⟩
    rw [if_neg hcycle]
    have hmanifest := h.manifests id hvisited hcycle
    cases hold : r.manifests.get? id with
    | none =>
      simp only
      split
      · exact visited_error
      refine visited_ok (h.missing hcycle hvisited (hmanifest ▸ hold) _) ⟨?_, ?_⟩ ?_
      · exact fun x hx => mem_cons_of_mem _ hx
      · intro x hx hdeg
        have hne : x ≠ id := by
          rintro rfl
          exact (mem_append.1 hx).elim hcycle hvisited
        exact ((status_setState r id _ _ x).trans (if_neg hne)).trans hdeg
      exact fun x hx => .inl (mem_singleton.1 hx ▸ mem_cons_self)
    | some old =>
      have hstart : start.manifests.get? id = some old := hmanifest ▸ hold
      have hlisted : start.manifests.get? id ≠ none := fun hnone => by
        rw [hstart] at hnone
        cases hnone
      have hstatus : r.status id = start.status id := by
        unfold Registry.status
        rw [h.states id hvisited hcycle]
      simp only
      by_cases hdegraded : r.status id = some .degraded
      · rw [if_pos hdegraded]
        have hirregular : ¬ Regular load start id := fun hregular =>
          hregular.sound (hstatus ▸ hdegraded)
        split
        · exact visited_error
        have hentered : Good load start (id :: visiting) r :=
          h.enter hcycle hvisited ⟨rfl, rfl, rfl⟩ (fun _ _ => rfl)
            (fun hregular => absurd hregular hirregular)
        obtain ⟨hgood, hgrows⟩ := hentered.append hcycle (r.append id) ⟨rfl, rfl⟩ rfl
          (fun _ _ => rfl) (fun _ => hdegraded) (fun hregular => absurd hregular hirregular)
          (fun hdeg => hdeg) hlisted
          (fun status hs => some.inj (hdegraded.symm.trans hs) ▸ rfl)
        exact visited_ok hgood hgrows
          (fun x hx => .inl (mem_singleton.1 hx ▸ mem_cons_self))
      rw [if_neg hdegraded]
      cases hload : load id with
      | error exc =>
        have hirregular : ¬ Regular load start id := by
          rintro ⟨-, ⟨found, hfound⟩, -⟩
          rw [hload] at hfound
          cases hfound
        exact degrade_visited h hcycle hvisited hlisted hirregular (f := none) exc
      | ok found =>
        have hentered := entered_manifest hload hold hstart
        simp only [hentered, getD_some]
        by_cases hversion : (manifestOf load start id).apiVersion = extensionApiVersion
        · rw [if_neg (not_not.2 hversion)]
          have hregular : Regular load start id :=
            ⟨fun hdeg => hdegraded (hstatus.trans hdeg), ⟨found, hload⟩, hversion⟩
          obtain ⟨hsame, hothers⟩ := entered_same r id found
          have hgood : Good load start (id :: visiting) (entered r id found) :=
            h.enter hcycle hvisited hsame hothers (fun _ => hentered)
          have hsteps : ∀ d ∈ (manifestOf load start id).dependencies, ∀ v ∈ id :: visiting,
              Relation.TransGen (DependsOn load start) v d := by
            intro d hd v hv
            rcases mem_cons.1 hv with rfl | hv
            · exact .single hd
            exact (hpath v hv).tail hd
          have hfold := @foldl_visited strict load start (id :: visiting) (entered r id found) fuel
            (manifestOf load start id).dependencies (fun d hd r hr =>
              ih hr (nodup_cons.2 ⟨hcycle, hnodup⟩)
                (fun v hv => by
                  rcases mem_cons.1 hv with rfl | hv
                  · exact mem_map.2 ⟨_, mem_of_get? hstart, rfl⟩
                  exact hknown v hv)
                (by rw [length_cons]; omega) (hsteps d hd)) hgood
          obtain ⟨hnofuel, hdone⟩ := hfold
          cases hrun : (manifestOf load start id).dependencies.foldlM
              (fun r dependency => visit strict load fuel (id :: visiting) dependency r)
              (entered r id found) with
          | error e =>
            refine ⟨fun heq => hnofuel ?_, by intro _ heq; cases heq⟩
            rw [hrun]
            exact heq
          | ok last =>
            obtain ⟨hlast, hgrows, hdependencies⟩ := hdone last hrun
            have hlast' : (listed last id).visited = id :: last.visited
                ∧ (listed last id).order = last.order ++ [id]
                ∧ (listed last id).manifests = last.manifests := by
              unfold Extensions.listed
              split
              all_goals exact ⟨rfl, rfl, rfl⟩
            have hstates : ∀ x, x ≠ id → (listed last id).states.get? x = last.states.get? x := by
              intro x hx
              unfold Extensions.listed
              split
              · exact get?_set_ne _ _ (Ne.symm hx)
              rfl
            have hself : ∀ x, last.status x = some .degraded →
                (listed last id).status x = some .degraded := by
              intro x hx
              unfold Extensions.listed
              split
              · next hdisabled =>
                rw [status_setState]
                split
                · next heq =>
                  have hboth : last.status id = some .disabled := hdisabled
                  rw [← heq, hx] at hboth
                  cases hboth
                exact hx
              exact hx
            obtain ⟨hgood', hgrows'⟩ := hlast.append hcycle (listed last id)
              ⟨hlast'.1, hlast'.2.1⟩ hlast'.2.2 hstates (fun hirr => absurd hregular hirr)
              (fun _ d hd => by
                rcases hdependencies d hd with hmem | ⟨hmem, hdeg⟩
                · rcases hlast.listed d hmem with hin | hmissing
                  · exact .inl hin
                  exact .inr (.inl hmissing)
                refine .inr (.inr ⟨?_, ?_, hself d hdeg⟩)
                · rcases mem_cons.1 hmem with rfl | hv
                  · exact .single hd
                  exact .head hd (hpath d hv)
                rcases mem_cons.1 hmem with rfl | hv
                · exact mem_cons_self
                exact mem_cons_of_mem _ (mem_append_left _ hv))
              (hself id) hlisted (fun status hs => by
                unfold Extensions.listed at hs
                split at hs
                · rw [status_setState, if_pos rfl] at hs
                  exact some.inj hs ▸ rfl
                exact hlast.idle id status hs)
            have hweak : Grows visiting (entered r id found) last :=
              ⟨hgrows.visited, fun x hx hdeg => hgrows.degraded x (mem_cons_of_mem _ hx) hdeg⟩
            refine visited_ok hgood' (Grows.entered.trans (hweak.trans hgrows')) (fun x hx => .inl ?_)
            rw [hlast'.1]
            exact mem_singleton.1 hx ▸ mem_cons_self
        rw [if_pos hversion]
        have hirregular : ¬ Regular load start id := fun hregular => hversion hregular.version
        exact degrade_visited h hcycle hvisited hlisted hirregular _

lemma resolve_good {requested : List String} (hfresh : start.visited = [] ∧ start.order = [])
    (hidle : ∀ x status, start.status x = some status → status.idle = true) :
    resolve strict load requested start ≠ .error .fuel
      ∧ ∀ after, resolve strict load requested start = .ok after → Good load start [] after := by
  have hgood : Good load start [] start := by
    obtain ⟨hvisited, horder⟩ := hfresh
    constructor
    · exact horder ▸ nodup_nil
    · exact fun x hx => absurd (hvisited ▸ hx) not_mem_nil
    · exact fun x hx => absurd (horder ▸ hx) not_mem_nil
    · exact nofun
    · exact fun _ _ _ => rfl
    · exact fun _ _ _ => rfl
    · exact fun x hx => absurd (horder ▸ hx) not_mem_nil
    · exact fun x hx => absurd (horder ▸ hx) not_mem_nil
    · exact fun x hx => absurd (horder ▸ hx) not_mem_nil
    · exact fun x hx => absurd (horder ▸ hx) not_mem_nil
    exact hidle
  obtain ⟨hfuel, hafter⟩ := @foldl_visited strict load start [] start (start.manifests.length + 1)
    requested (fun _ _ _ hr => visit_visited hr nodup_nil
      (nofun) (Nat.le_refl _) (nofun))
    hgood
  exact ⟨hfuel, fun after h => (hafter after h).1⟩

lemma Good.order (h : Good load start [] r) :
    r.order.Nodup ∧ ∀ x ∈ r.order, Regular load start x →
      ¬ Relation.TransGen (DependsOn load start) x x → ∀ d, DependsOn load start x d →
        Before r.order d x ∨ start.manifests.get? d = none := by
  refine ⟨h.nodup, fun x hx hregular hacyclic d hd => ?_⟩
  rcases h.after x hx hregular d hd with hbefore | hmissing | ⟨hcycle, -, -⟩
  · exact .inl hbefore
  · exact .inr hmissing
  exact absurd hcycle hacyclic

end

/-! ## Registration -/

def Status.text : Status → String
  | .disabled => "disabled"
  | .discovered => "discovered"
  | .loaded => "loaded"
  | .starting => "starting"
  | .running => "running"
  | .degraded => "degraded"
  | .blocked => "blocked"
  | .missing => "missing"

namespace Registry

/-- `self._manifests[extension_id].dependencies` -/
def dependencies (r : Registry) (id : String) : List String :=
  ((r.manifests.get? id).map (·.dependencies)).getD []

def dependencyMessage (r : Registry) (dependency : String) (required : Status) : String :=
  let error := ((r.states.get? dependency).map (·.error)).getD ""
  "依赖扩展 " ++ dependency ++ " 未处于 " ++ required.text ++ " 状态 ("
    ++ ((r.status dependency).map Status.text).getD "missing" ++ ")"
    ++ (if error = "" then "" else ": " ++ error)

def dependencyError (r : Registry) (id : String) (required : Status) : Option String :=
  ((r.dependencies id).find? (fun d => r.status d ≠ some required)).map
    (fun d => r.dependencyMessage d required)

lemma dependencyError_eq_none {r : Registry} {id : String} {required : Status} :
    r.dependencyError id required = none ↔ ∀ d ∈ r.dependencies id, r.status d = some required := by
  unfold dependencyError
  rw [map_eq_none_iff, find?_eq_none]
  simp only [ne_eq, decide_not, Bool.not_eq_true', decide_eq_false_iff_not, not_not]

end Registry

section
variable (strict : Bool)
  /- the import of the backend, its `register` and the checks of its resources -/
  (register : String → Except String Unit)

def configure (failures : List (String × String)) (r : Registry) : Registry :=
  failures.foldl (fun r failure => r.setState failure.1 .degraded failure.2) r

/-- One round of `_load_and_register`. -/
def registerOne (r : Registry) (id : String) : Except Failure Registry :=
  if r.status id = some .degraded then .ok r
  else
    match r.dependencyError id .loaded with
    | some error => .ok (r.setState id .blocked error)
    | none =>
      match register id with
      | .error exc =>
        if strict then .error (.valueError exc)
        else .ok (r.setState id .degraded ("扩展注册失败: " ++ exc))
      | .ok _ => .ok (r.setState id .loaded)

def loadAndRegister (r : Registry) : Except Failure Registry :=
  r.order.foldlM (registerOne strict register) r

end

section
variable {strict : Bool} {register : String → Except String Unit} {r r' : Registry}

lemma registerOne_spec {id : String} (h : registerOne strict register r id = .ok r') :
    r'.order = r.order ∧ r'.manifests = r.manifests
      ∧ (∀ x, x ≠ id → r'.status x = r.status x)
      ∧ (r.status id = some .degraded → r'.status id = some .degraded)
      ∧ (r'.status id = r.status id ∨ r'.status id = some .loaded ∨ r'.status id = some .blocked
        ∨ r'.status id = some .degraded) := by
  have hset : ∀ status error, (r.setState id status error).order = r.order
      ∧ (r.setState id status error).manifests = r.manifests
      ∧ (∀ x, x ≠ id → (r.setState id status error).status x = r.status x)
      ∧ (r.setState id status error).status id = some status := fun status error =>
    ⟨rfl, rfl, fun x hx => by rw [status_setState, if_neg hx], by rw [status_setState, if_pos rfl]⟩
  unfold registerOne at h
  split at h
  · obtain rfl := Except.ok.inj h
    exact ⟨rfl, rfl, fun _ _ => rfl, fun hx => hx, .inl rfl⟩
  next hsound =>
  split at h
  · obtain rfl := Except.ok.inj h
    obtain ⟨horder, hmanifests, hothers, hid⟩ := hset .blocked _
    exact ⟨horder, hmanifests, hothers, fun hx => absurd hx hsound, .inr (.inr (.inl hid))⟩
  split at h
  · split at h
    · cases h
    obtain rfl := Except.ok.inj h
    obtain ⟨horder, hmanifests, hothers, hid⟩ := hset .degraded _
    exact ⟨horder, hmanifests, hothers, fun hx => absurd hx hsound, .inr (.inr (.inr hid))⟩
  obtain rfl := Except.ok.inj h
  obtain ⟨horder, hmanifests, hothers, hid⟩ := hset .loaded _
  exact ⟨horder, hmanifests, hothers, fun hx => absurd hx hsound, .inr (.inl hid)⟩

lemma foldlM_registerOne {ids : List String}
    (h : ids.foldlM (registerOne strict register) r = .ok r') :
    r'.order = r.order ∧ r'.manifests = r.manifests
      ∧ (∀ x, x ∉ ids → r'.status x = r.status x)
      ∧ (∀ x, r.status x = some .degraded → r'.status x = some .degraded)
      ∧ (∀ x, r'.status x = r.status x ∨ r'.status x = some .loaded ∨ r'.status x = some .blocked
        ∨ r'.status x = some .degraded) := by
  induction ids generalizing r with
  | nil =>
    obtain rfl := Except.ok.inj h
    exact ⟨rfl, rfl, fun _ _ => rfl, fun _ hx => hx, fun _ => .inl rfl⟩
  | cons id rest ih =>
    rw [foldlM_cons] at h
    cases hone : registerOne strict register r id with
    | error =>
      rw [hone] at h
      cases h
    | ok =>
      rw [hone] at h
      obtain ⟨horder, hmanifests, hothers, hdegraded, hstatus⟩ := registerOne_spec hone
      obtain ⟨horder', hmanifests', hothers', hdegraded', hstatus'⟩ := ih h
      refine ⟨horder'.trans horder, hmanifests'.trans hmanifests, ?_, ?_, ?_⟩
      · intro x hx
        obtain ⟨hxid, hx⟩ := not_or.1 (fun hor => hx (mem_cons.2 hor))
        rw [hothers' x hx, hothers x hxid]
      · intro x hx
        apply hdegraded'
        by_cases hxid : x = id
        · exact hxid ▸ hdegraded (hxid ▸ hx)
        rw [hothers x hxid, hx]
      intro x
      rcases hstatus' x with hsame | hrest
      · rw [hsame]
        by_cases hxid : x = id
        · exact hxid ▸ hstatus
        exact .inl (hothers x hxid)
      exact .inr hrest

lemma configure_spec (failures : List (String × String)) (r : Registry) :
    (configure failures r).order = r.order ∧ (configure failures r).manifests = r.manifests
      ∧ ∀ x, (configure failures r).status x = r.status x
        ∨ (configure failures r).status x = some .degraded := by
  unfold configure
  induction failures generalizing r with
  | nil => exact ⟨rfl, rfl, fun _ => .inl rfl⟩
  | cons failure rest ih =>
    obtain ⟨horder, hmanifests, hstatus⟩ := ih (r.setState failure.1 .degraded failure.2)
    refine ⟨horder, hmanifests, fun x => ?_⟩
    rcases hstatus x with hsame | hdegraded
    · rw [foldl_cons, hsame, status_setState]
      split
      · exact .inr rfl
      exact .inl rfl
    exact .inr hdegraded

def Startable (r : Registry) (id : String) : Prop :=
  r.status id = some .loaded ∨ r.status id = some .blocked

lemma loaded_placed {load : String → Except String (Option ExtensionManifest)} {start : Registry}
    (h : Good load start [] r) {failures : List (String × String)}
    (hload : loadAndRegister strict register (configure failures r) = .ok r') : r'.order = r.order
      ∧ (∀ x, Startable r' x → x ∈ r'.order
        ∧ ∀ d ∈ r'.dependencies x, Startable r' d → Before r'.order d x)
      ∧ ∀ x, r'.status x ≠ some .starting ∧ r'.status x ≠ some .running := by
  obtain ⟨horder, hmanifests, hothers, hdegraded, hstatus⟩ := foldlM_registerOne hload
  obtain ⟨horder₁, hmanifests₁, hstatus₁⟩ := configure_spec failures r
  have hidle : ∀ x status, (configure failures r).status x = some status → status.idle = true := by
    intro x status hx
    rcases hstatus₁ x with hsame | hdeg
    · exact h.idle x status (hsame ▸ hx)
    exact some.inj (hdeg.symm.trans hx) ▸ rfl
  have hkept : ∀ x, r.status x = some .degraded → r'.status x = some .degraded := by
    intro x hx
    apply hdegraded
    rcases hstatus₁ x with hsame | hdeg
    · exact hsame.trans hx
    exact hdeg
  have hplaced : ∀ x, Startable r' x → x ∈ r.order := by
    intro x hx
    by_contra hout
    have hsame := hothers x (by rw [horder₁]; exact hout)
    rcases hx with hloaded | hblocked
    · exact absurd (hidle x .loaded (hsame ▸ hloaded)) (by decide)
    exact absurd (hidle x .blocked (hsame ▸ hblocked)) (by decide)
  have hnot : ∀ x, r'.status x = some .degraded → ¬ Startable r' x := by
    rintro x hx (hloaded | hblocked)
    · rw [hx] at hloaded
      cases hloaded
    rw [hx] at hblocked
    cases hblocked
  refine ⟨horder.trans horder₁, fun x hx => ⟨?_, fun d hd hstartable => ?_⟩, fun x => ?_⟩
  · rw [horder, horder₁]
    exact hplaced x hx
  · have hxorder := hplaced x hx
    have hregular : Regular load start x := by
      by_contra hirregular
      exact hnot x (hkept x (h.degraded x hxorder hirregular)) hx
    have hdepends : DependsOn load start x d := by
      unfold Registry.dependencies at hd
      rw [hmanifests, hmanifests₁, h.kept x hxorder hregular] at hd
      exact hd
    rw [horder, horder₁]
    rcases h.after x hxorder hregular d hdepends with hbefore | hmissing | ⟨-, -, hdeg⟩
    · exact hbefore
    · exact absurd hmissing (h.known d (hplaced d hstartable))
    exact absurd hstartable (hnot d (hkept d hdeg))
  constructor
  · intro hx
    rcases hstatus x with hsame | hl | hb | hd
    · exact absurd (hidle x .starting (hsame ▸ hx)) (by decide)
    · rw [hx] at hl
      cases hl
    · rw [hx] at hb
      cases hb
    rw [hx] at hd
    cases hd
  intro hx
  rcases hstatus x with hsame | hl | hb | hd
  · exact absurd (hidle x .running (hsame ▸ hx)) (by decide)
  · rw [hx] at hl
    cases hl
  · rw [hx] at hb
    cases hb
  rw [hx] at hd
  cases hd

end
end DeterminFlow.Plugins.Extensions
