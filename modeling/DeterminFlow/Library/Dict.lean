/-
  Library.Dict
  **INSERTION-ORDERED DICTIONARIES.**

  Python's `dict` as an association list: a key keeps the place of its first
  insertion, and a later assignment replaces its value there.
-/
import Mathlib.Data.List.Basic
import Mathlib.Data.List.Induction

namespace DeterminFlow.Library

open List Option

abbrev Dict (κ ν : Type) : Type := List (κ × ν)

namespace Dict

variable {κ ν : Type} [DecidableEq κ]

/-- `d.get(key)`. -/
def get? (d : Dict κ ν) (key : κ) : Option ν :=
  (d.find? (·.1 = key)).map (·.2)

/-- `key in d`. -/
def has (d : Dict κ ν) (key : κ) : Bool := d.any (·.1 = key)

/-- `d[key] = value`. -/
def set : Dict κ ν → κ → ν → Dict κ ν
  | [], key, value => [(key, value)]
  | entry :: rest, key, value =>
    if entry.1 = key then (key, value) :: rest else entry :: set rest key value

/-- `d.update(other)`. -/
def update (d other : Dict κ ν) : Dict κ ν :=
  other.foldl (fun acc entry => acc.set entry.1 entry.2) d

/-- `d.setdefault(key, value)`, the dictionary it leaves. -/
def setDefault (d : Dict κ ν) (key : κ) (value : ν) : Dict κ ν :=
  if d.has key then d else d.set key value

/-- The dictionary with `f` applied to every value. -/
def mapValues {μ : Type} (d : Dict κ ν) (f : κ → ν → μ) : Dict κ μ :=
  d.map (fun entry => (entry.1, f entry.1 entry.2))

/-- The dictionary with `f` applied to every value; `none` as soon as one
value has no image. -/
def mapValues? {μ : Type} (d : Dict κ ν) (f : κ → ν → Option μ) : Option (Dict κ μ) :=
  d.mapM (fun entry => (f entry.1 entry.2).map (fun value => (entry.1, value)))

def keys (d : Dict κ ν) : List κ := d.map (·.1)

@[simp] lemma get?_nil (key : κ) : get? ([] : Dict κ ν) key = none := rfl

lemma get?_cons (entry : κ × ν) (rest : Dict κ ν) (key : κ) :
    get? (entry :: rest) key = if entry.1 = key then some entry.2 else get? rest key := by
  unfold get?
  by_cases h : entry.1 = key <;> simp [h]

@[simp] lemma get?_set_self (d : Dict κ ν) (key : κ) (value : ν) :
    (d.set key value).get? key = some value := by
  induction d with
  | nil => simp [set, get?_cons]
  | cons entry rest ih =>
    unfold set
    split
    · simp [get?_cons]
    rename_i hne
    rw [get?_cons, if_neg hne, ih]

variable {other : κ} {d : Dict κ ν} {μ : Type} {out : Dict κ μ} {f : κ → ν → Option μ}

lemma get?_set_ne (d : Dict κ ν) {key : κ} (value : ν) (hne : key ≠ other) :
    (d.set key value).get? other = d.get? other := by
  induction d with
  | nil => simp [set, get?_cons, hne]
  | cons entry rest ih =>
    unfold set
    split
    · rename_i heq
      have hne' : entry.1 ≠ other := by rw [heq]; exact hne
      rw [get?_cons, get?_cons, if_neg hne, if_neg hne']
    rw [get?_cons, get?_cons, ih]

lemma get?_set (d : Dict κ ν) (key other : κ) (value : ν) :
    (d.set key value).get? other = if key = other then some value else d.get? other := by
  by_cases h : key = other
  · subst h; simp
  rw [if_neg h, get?_set_ne d value h]

lemma has_iff (d : Dict κ ν) (key : κ) : d.has key = true ↔ (d.get? key).isSome := by
  induction d with
  | nil => simp [has]
  | cons entry rest ih =>
    rw [get?_cons]
    by_cases h : entry.1 = key
    · simp [has, h]
    have hrest : has (entry :: rest) key = has rest key := by simp [has, h]
    rw [hrest, ih, if_neg h]

lemma mem_of_get? {key : κ} {value : ν} (h : d.get? key = some value) : (key, value) ∈ d := by
  obtain ⟨entry, hfind, hvalue⟩ := map_eq_some_iff.1 h
  have hkey : entry.1 = key := by simpa using find?_some hfind
  rw [← hkey, ← hvalue]
  exact mem_of_find?_eq_some hfind

lemma get?_filter_keys (d : Dict κ ν) (p : κ → Bool) (key : κ) :
    get? (d.filter (fun entry => p entry.1)) key = if p key then d.get? key else none := by
  induction d with
  | nil => simp
  | cons entry rest ih =>
    by_cases hkeep : p entry.1 = true
    · rw [filter_cons_of_pos (p := fun entry : κ × ν => p entry.1) hkeep, get?_cons, get?_cons, ih]
      by_cases h : entry.1 = key
      · rw [if_pos h, if_pos h, ← h, if_pos hkeep]
      rw [if_neg h, if_neg h]
    rw [filter_cons_of_neg (p := fun entry : κ × ν => p entry.1) hkeep, get?_cons, ih]
    by_cases h : entry.1 = key
    · rw [if_pos h, ← h, if_neg hkeep, if_neg hkeep]
    rw [if_neg h]

lemma get?_mapValues (d : Dict κ ν) (f : κ → ν → μ) (key : κ) :
    (d.mapValues f).get? key = (d.get? key).map (f key) := by
  induction d with
  | nil => rfl
  | cons entry rest ih =>
    have hcons : mapValues (entry :: rest) f = (entry.1, f entry.1 entry.2) :: mapValues rest f :=
      rfl
    rw [hcons, get?_cons, get?_cons]
    by_cases h : entry.1 = key
    · simp [h]
    rw [if_neg h, if_neg h, ih]

omit [DecidableEq κ] in
lemma mapValues?_cons (entry : κ × ν) (rest : Dict κ ν) (f : κ → ν → Option μ) :
    mapValues? (entry :: rest) f = (f entry.1 entry.2).bind fun value =>
      (mapValues? rest f).map (fun out => (entry.1, value) :: out) := by
  unfold mapValues?
  rw [mapM_cons]
  cases f entry.1 entry.2 with
  | none => rfl
  | some =>
    cases rest.mapM (fun entry => (f entry.1 entry.2).map (fun v => (entry.1, v))) with
    | _ => rfl

lemma get?_mapValues? (h : mapValues? d f = some out) (key : κ) :
    out.get? key = (d.get? key).bind (f key) := by
  induction d generalizing out with
  | nil =>
    cases h
    rfl
  | cons entry rest ih =>
    rw [mapValues?_cons] at h
    obtain ⟨_, hvalue, hrest⟩ := bind_eq_some_iff.1 h
    obtain ⟨_, htail, rfl⟩ := map_eq_some_iff.1 hrest
    rw [get?_cons, get?_cons]
    by_cases hkey : entry.1 = key
    · rw [if_pos hkey, if_pos hkey, ← hkey]
      exact hvalue.symm
    rw [if_neg hkey, if_neg hkey]
    exact ih htail

omit [DecidableEq κ] in
lemma mem_of_mapValues? (h : mapValues? d f = some out) {entry : κ × μ} (hmem : entry ∈ out) :
    ∃ v, (entry.1, v) ∈ d ∧ f entry.1 v = some entry.2 := by
  induction d generalizing out with
  | nil =>
    cases h
    cases hmem
  | cons first rest ih =>
    rw [mapValues?_cons] at h
    obtain ⟨_, hvalue, hrest⟩ := bind_eq_some_iff.1 h
    obtain ⟨_, htail, rfl⟩ := map_eq_some_iff.1 hrest
    rcases mem_cons.1 hmem with hfirst | hlater
    · rw [hfirst]
      exact ⟨first.2, mem_cons_self, hvalue⟩
    obtain ⟨v, hv, hf⟩ := ih htail hlater
    exact ⟨v, mem_cons_of_mem _ hv, hf⟩

omit [DecidableEq κ] in
lemma exists_of_mapValues? (h : mapValues? d f = some out) {key : κ} {value : ν}
    (hmem : (key, value) ∈ d) : ∃ v, f key value = some v := by
  induction d generalizing out with
  | nil => cases hmem
  | cons first rest ih =>
    rw [mapValues?_cons] at h
    obtain ⟨image, himage, hrest⟩ := bind_eq_some_iff.1 h
    obtain ⟨_, htail, _⟩ := map_eq_some_iff.1 hrest
    rcases mem_cons.1 hmem with hfirst | hlater
    · rw [← hfirst] at himage
      exact ⟨image, himage⟩
    exact ih htail hlater

omit [DecidableEq κ] in
lemma mapValues?_eq_mapValues {g : κ → ν → μ}
    (h : ∀ entry ∈ d, f entry.1 entry.2 = some (g entry.1 entry.2)) :
    mapValues? d f = some (mapValues d g) := by
  induction d with
  | nil => rfl
  | cons entry rest ih =>
    rw [mapValues?_cons, h entry mem_cons_self, ih (fun e he => h e (mem_cons_of_mem _ he))]
    rfl

omit [DecidableEq κ] in
lemma mapValues?_self {f : κ → ν → Option ν} (h : ∀ entry ∈ d, f entry.1 entry.2 = some entry.2) :
    mapValues? d f = some d := by
  induction d with
  | nil => rfl
  | cons entry rest ih =>
    rw [mapValues?_cons, h entry mem_cons_self, ih (fun e he => h e (mem_cons_of_mem _ he))]
    rfl

omit [DecidableEq κ] in
lemma exists_mapValues? (h : ∀ entry ∈ d, ∃ value, f entry.1 entry.2 = some value) :
    ∃ out, mapValues? d f = some out := by
  induction d with
  | nil => exact ⟨[], rfl⟩
  | cons entry rest ih =>
    obtain ⟨value, hvalue⟩ := h entry mem_cons_self
    obtain ⟨out, hout⟩ := ih (fun e he => h e (mem_cons_of_mem _ he))
    refine ⟨(entry.1, value) :: out, ?_⟩
    rw [mapValues?_cons, hvalue, hout]
    rfl

omit [DecidableEq κ] in
lemma mapValues?_map {ρ : Type} (d : Dict κ ν) (f : κ → ν → Option μ) (g : κ → μ → ρ) :
    (d.mapValues? f).map (fun out => out.mapValues g)
      = d.mapValues? (fun key value => (f key value).map (g key)) := by
  induction d with
  | nil => rfl
  | cons entry rest ih =>
    rw [mapValues?_cons, mapValues?_cons, ← ih]
    cases f entry.1 entry.2 with
    | none => rfl
    | some =>
      cases mapValues? rest f with
      | _ => rfl

lemma get?_update_of_not_has (d other : Dict κ ν) {key : κ} (h : other.get? key = none) :
    (d.update other).get? key = d.get? key := by
  induction other generalizing d with
  | nil => rfl
  | cons entry rest ih =>
    rw [get?_cons] at h
    split at h
    · cases h
    rename_i hne
    show (update (d.set entry.1 entry.2) rest).get? key = _
    rw [ih _ h, get?_set_ne _ _ hne]

/-- What `update` writes under a key: the last entry counts. -/
def written (other : Dict κ ν) (key : κ) : Option ν := (update [] other).get? key

lemma get?_update (d other : Dict κ ν) (key : κ) :
    (d.update other).get? key = (other.written key).or (d.get? key) := by
  unfold written update
  induction other using List.reverseRecOn with
  | nil => simp
  | append_singleton rest entry ih =>
    rw [foldl_append, foldl_append]
    show (set _ entry.1 entry.2).get? key = ((set _ entry.1 entry.2).get? key).or _
    rw [get?_set, get?_set]
    by_cases h : entry.1 = key
    · rw [if_pos h, if_pos h]
      rfl
    rw [if_neg h, if_neg h]
    exact ih

lemma written_eq_get? {other : Dict κ ν} (h : other.keys.Nodup) (key : κ) :
    other.written key = other.get? key := by
  induction other with
  | nil => rfl
  | cons entry rest ih =>
    obtain ⟨hnew, hrest⟩ := nodup_cons.1 h
    have hfirst : written (entry :: rest) key = (update [entry] rest).get? key := rfl
    rw [hfirst, get?_update, ih hrest, get?_cons, get?_cons]
    by_cases heq : entry.1 = key
    · have hnone : get? rest key = none := by
        cases hget : get? rest key with
        | none => rfl
        | some =>
          have hmem : key ∈ keys rest := mem_map.2 ⟨_, mem_of_get? hget, rfl⟩
          rw [← heq] at hmem
          exact absurd hmem hnew
      rw [if_pos heq, if_pos heq, hnone]
      rfl
    rw [if_neg heq, if_neg heq]
    exact or_none

/-! ## Keys -/

lemma mem_keys_set {key : κ} {value : ν} :
    other ∈ (d.set key value).keys ↔ other = key ∨ other ∈ d.keys := by
  induction d with
  | nil => simp [set, keys]
  | cons entry rest ih =>
    unfold set
    split
    · rename_i heq
      simp [keys, heq]
    simp only [keys, map_cons, mem_cons] at ih ⊢
    rw [ih]
    exact or_left_comm

lemma nodup_keys_set (h : d.keys.Nodup) (key : κ) (value : ν) : (d.set key value).keys.Nodup := by
  induction d with
  | nil => simp [set, keys]
  | cons entry rest ih =>
    have hcons : entry.1 ∉ keys rest ∧ (keys rest).Nodup := nodup_cons.1 h
    unfold set
    split
    · rename_i heq
      exact nodup_cons.2 ⟨heq ▸ hcons.1, hcons.2⟩
    rename_i hne
    refine nodup_cons.2 ⟨fun hmem => ?_, ih hcons.2⟩
    rcases mem_keys_set.1 hmem with heq | hrest
    · exact hne heq
    exact hcons.1 hrest

lemma nodup_keys_update (h : d.keys.Nodup) (other : Dict κ ν) : (d.update other).keys.Nodup := by
  unfold update
  induction other generalizing d with
  | nil => exact h
  | cons entry rest ih => exact ih (nodup_keys_set h entry.1 entry.2)

lemma set_self {key : κ} {value : ν} (h : d.get? key = some value) : d.set key value = d := by
  induction d with
  | nil => cases h
  | cons entry rest ih =>
    rw [get?_cons] at h
    rw [set]
    split at h
    · next hkey =>
      obtain rfl := some.inj h
      rw [if_pos hkey, ← hkey]
    · next hkey => rw [if_neg hkey, ih h]

lemma set_of_notMem {key : κ} (h : key ∉ d.keys) (value : ν) :
    d.set key value = d ++ [(key, value)] := by
  induction d with
  | nil => rfl
  | cons entry rest ih =>
    have hne : key ≠ entry.1 ∧ key ∉ keys rest := not_or.1 (fun hor => h (mem_cons.2 hor))
    rw [set, if_neg (fun heq => hne.1 heq.symm), ih hne.2, cons_append]

lemma get?_of_mem (h : d.keys.Nodup) {key : κ} {value : ν} (hmem : (key, value) ∈ d) :
    d.get? key = some value := by
  induction d with
  | nil => cases hmem
  | cons entry rest ih =>
    have hcons : entry.1 ∉ keys rest ∧ (keys rest).Nodup := nodup_cons.1 h
    rw [get?_cons]
    rcases mem_cons.1 hmem with rfl | hrest
    · rw [if_pos rfl]
    rw [if_neg, ih hcons.2 hrest]
    rintro rfl
    exact hcons.1 (mem_map.2 ⟨_, hrest, rfl⟩)

lemma mem_set (h : d.keys.Nodup) {key : κ} {value : ν} {entry : κ × ν}
    (hmem : entry ∈ d.set key value) : entry = (key, value) ∨ entry ∈ d ∧ entry.1 ≠ key := by
  have hget : (d.set key value).get? entry.1 = some entry.2 :=
    get?_of_mem (nodup_keys_set h key value) hmem
  rw [get?_set] at hget
  by_cases hkey : key = entry.1
  · rw [if_pos hkey] at hget
    exact .inl (Prod.ext hkey.symm (some.inj hget).symm)
  rw [if_neg hkey] at hget
  exact .inr ⟨mem_of_get? hget, fun heq => hkey heq.symm⟩

lemma get?_foldl_set {α : Type} (k : α → κ) (v : α → ν) (l : List α) (d : Dict κ ν) (key : κ) :
    (l.foldl (fun acc a => acc.set (k a) (v a)) d).get? key =
      ((l.reverse.find? (fun a => k a = key)).map v).or (d.get? key) := by
  induction l generalizing d with
  | nil => rfl
  | cons a rest ih =>
    rw [foldl_cons, ih, reverse_cons, find?_append, get?_set]
    cases rest.reverse.find? (fun a => k a = key) with
    | some => rfl
    | none => by_cases h : k a = key <;> simp [h]

/-! ## Merging several dictionaries -/

section
variable {ι : Type} (f : ι → Dict κ ν)

def mergeAll (d : Dict κ ν) (sources : List ι) : Dict κ ν :=
  sources.foldl (fun acc x => acc.update (f x)) d

lemma get?_mergeAll (d : Dict κ ν) (sources : List ι) (key : κ) : (mergeAll f d sources).get? key
      = (sources.reverse.findSome? (fun x => (f x).written key)).or (d.get? key) := by
  unfold mergeAll
  induction sources using List.reverseRecOn with
  | nil => simp
  | append_singleton rest x ih =>
    rw [foldl_append, reverse_append]
    show (update _ (f x)).get? key = _
    rw [get?_update, ih]
    show _ = (List.findSome? _ (x :: rest.reverse)).or _
    rw [findSome?_cons]
    cases (f x).written key with
    | _ => rfl

def Agree (sources : List ι) : Prop :=
  ∀ x ∈ sources, ∀ y ∈ sources, ∀ key u v,
    (f x).written key = some u → (f y).written key = some v → u = v

variable {f} {sources : List ι} {x : ι} {d : Dict κ ν} {v : ν}

lemma get?_mergeAll_concat {key : κ} (hx : (f x).written key = some v) :
    (mergeAll f d (sources ++ [x])).get? key = some v := by
  rw [get?_mergeAll, reverse_append]
  show (List.findSome? _ (x :: sources.reverse)).or _ = _
  rw [findSome?_cons, hx]
  rfl

lemma Agree.get?_mergeAll (h : Agree f sources) (hmem : x ∈ sources) {key : κ}
    (hx : (f x).written key = some v) : (mergeAll f d sources).get? key = some v := by
  rw [Dict.get?_mergeAll]
  cases hfind : sources.reverse.findSome? (fun y => (f y).written key) with
  | none =>
    have hnone := findSome?_eq_none_iff.1 hfind x (mem_reverse.2 hmem)
    rw [hx] at hnone
    cases hnone
  | some u =>
    obtain ⟨y, hy, hwritten⟩ := exists_of_findSome?_eq_some hfind
    rw [h y (mem_reverse.1 hy) x hmem key u v hwritten hx]
    rfl

lemma mergeAll_order_free_iff (d : Dict κ ν) (sources : List ι) :
    (∀ s t : List ι, s.Perm sources → t.Perm sources → ∀ key,
        (mergeAll f d s).get? key = (mergeAll f d t).get? key) ↔ Agree f sources := by
  constructor
  · intro h x hx y hy key _ v hu hv
    -- each of the two sources is put last in turn
    obtain ⟨a, b, hab⟩ := append_of_mem hx
    obtain ⟨c, e, hce⟩ := append_of_mem hy
    have hs : ((a ++ b) ++ [x]).Perm sources := by
      rw [hab]
      exact (perm_append_singleton x (a ++ b)).trans perm_middle.symm
    have ht : ((c ++ e) ++ [y]).Perm sources := by
      rw [hce]
      exact (perm_append_singleton y (c ++ e)).trans perm_middle.symm
    have hsame := h _ _ hs ht key
    rw [get?_mergeAll_concat hu, get?_mergeAll_concat hv] at hsame
    exact some.inj hsame
  intro h s t hs ht key
  have hboth : ∀ l : List ι, l.Perm sources → Agree f l := by
    intro l hl x hx y hy
    exact h x (hl.mem_iff.1 hx) y (hl.mem_iff.1 hy)
  by_cases hwrite : ∃ x ∈ sources, ∃ v, (f x).written key = some v
  · obtain ⟨x, hx, v, hv⟩ := hwrite
    rw [(hboth s hs).get?_mergeAll (hs.mem_iff.2 hx) hv,
      (hboth t ht).get?_mergeAll (ht.mem_iff.2 hx) hv]
  have hnone : ∀ l : List ι, l.Perm sources →
      l.reverse.findSome? (fun x => (f x).written key) = none := by
    intro l hl
    rw [findSome?_eq_none_iff]
    intro x hx
    by_contra hsome
    obtain ⟨v, hv⟩ := ne_none_iff_exists'.1 hsome
    exact hwrite ⟨x, hl.mem_iff.1 (mem_reverse.1 hx), v, hv⟩
  rw [Dict.get?_mergeAll, Dict.get?_mergeAll, hnone s hs, hnone t ht]

end
end Dict
end DeterminFlow.Library
