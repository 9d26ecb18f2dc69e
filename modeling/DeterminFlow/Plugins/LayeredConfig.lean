/-
  Plugins.LayeredConfig
  **JSON RESOURCES IN LAYERS.**

  A `LayeredJsonConfig` joins a base file and the files of extensions.  What the
  user changes is saved in two places: in the base file, and as overrides that
  belong to the owner of a layer.
-/
import DeterminFlow.Library.Dict
import Mathlib.Data.List.Dedup

namespace DeterminFlow.Plugins.Layered

open Library List Dict Except

/-! ## Documents, layers, overrides -/

/-- What the code asks of the values of a JSON document. -/
class JsonValue (V : Type) where
  /-- `==` -/
  same : V → V → Bool
  /-- `str(value.get("id", ""))` of an object -/
  idText : V → Option String
  /-- `value.get("id")` is not falsy. -/
  hasId : V → Bool

/-- The errors of the code and of its operations. -/
inductive Failure where
  | resourceConflict (message : String)
  | valueError (message : String)
  /-- An operation on a value of another shape. -/
  | typeError
  deriving DecidableEq

/-- The value of a section. -/
inductive Node (V : Type) where
  | mapping (values : Dict String V)
  | sequence (items : List V)
  | scalar (truthy : Bool)
  deriving DecidableEq

abbrev Document (V : Type) : Type := Dict String (Node V)

/-- Sections are objects or lists. -/
inductive Kind where
  | dict
  | list
  deriving DecidableEq

/-- The file of an extension (`OwnedPath`). -/
structure Layer (V : Type) where
  owner : String
  path : String
  document : Document V

structure OwnedItem (V : Type) where
  owner : String
  value : V

abbrev Owned (V : Type) : Type := Dict (String × String) (OwnedItem V)

structure OwnerData (V : Type) where
  values : Dict String (Dict String V) := []
  deleted : Dict String (List String) := []
  deriving DecidableEq

abbrev Overrides (V : Type) : Type := Dict String (OwnerData V)

/-- The overrides of an owner as a file has them; `none` is another shape. -/
structure RawOwnerData (V : Type) where
  values : Option (Dict String (Option (Dict String V)))
  deleted : Option (Dict String (Option (List String)))

/-- `"extensions"` of the override file. -/
abbrev RawOverrides (V : Type) : Type := Option (Dict String (Option (RawOwnerData V)))

def OwnerData.raw {V : Type} (data : OwnerData V) : RawOwnerData V where
  values := some (data.values.mapValues (fun _ values => some values))
  deleted := some (data.deleted.mapValues (fun _ ids => some ids))

def Overrides.raw {V : Type} (overrides : Overrides V) : RawOverrides V :=
  some (overrides.mapValues (fun _ data => some data.raw))

/-- The two files that a configuration writes. -/
structure Files (V : Type) where
  base : Document V
  overrides : RawOverrides V

/-- `LayeredJsonConfig`: the sections have different names. -/
structure LayeredJsonConfig (V : Type) where
  baseFile : String
  layers : List (Layer V)
  dictSections : List String
  listSections : List String
  nodup : (dictSections ++ listSections).Nodup

section
variable {V : Type} [JsonValue V]

def LayeredJsonConfig.sections (c : LayeredJsonConfig V) : List (String × Kind) :=
  c.dictSections.map (·, .dict) ++ c.listSections.map (·, .list)

/-- `section in self.dict_sections` -/
def LayeredJsonConfig.kind (c : LayeredJsonConfig V) (name : String) : Kind :=
  if name ∈ c.dictSections then .dict else .list

def itemId (value : V) : Option String :=
  if JsonValue.hasId value then JsonValue.idText value else none

/-- One round of `_list_by_id`. -/
def addItem (label : String) (result : Dict String V) (value : V) :
    Except Failure (Dict String V) :=
  match itemId value with
  | none => .error (.valueError ("列表资源必须包含 id" ++ label))
  | some id => .ok (result.set id value)

def listById (label : String) (values : List V) : Except Failure (Dict String V) :=
  values.foldlM (addItem label) []

/-- A section as a mapping from ids; list sections are read by `_list_by_id`. -/
def entries (label : String) : Kind → Option (Node V) → Except Failure (Dict String V)
  | .dict, none => .ok []
  | .dict, some (.mapping values) => .ok values
  | .dict, some _ => .error .typeError
  | .list, none => .ok []
  | .list, some (.sequence items) => listById label items
  | .list, some (.mapping []) => .ok []
  | .list, some (.scalar false) => .ok []
  | .list, some _ => .error (.valueError ("列表资源必须包含 id" ++ label))

def node : Kind → Dict String V → Node V
  | .dict, values => .mapping values
  | .list, values => .sequence (values.map (·.2))

def Layer.entries (layer : Layer V) (name : String) : Kind → Except Failure (Dict String V)
  | .dict =>
    match layer.document.get? name with
    | none => .ok []
    | some (.mapping values) => .ok values
    | some _ => .error (.valueError (layer.path ++ ": " ++ name ++ " 必须是对象"))
  | .list => Layered.entries (" in " ++ layer.path) .list (layer.document.get? name)

def claim (owner name : String) (base : Dict String V) (owned : Owned V) (e : String × V) :
    Except Failure (Owned V) :=
  if base.has e.1 || owned.has (name, e.1) then
    .error (.resourceConflict ("扩展资源冲突: " ++ name ++ "." ++ e.1 ++ " (" ++ owner ++ ")"))
  else .ok (owned.set (name, e.1) { owner := owner, value := e.2 })

def claimSection (c : LayeredJsonConfig V) (base : Document V) (layer : Layer V) (owned : Owned V)
    (s : String × Kind) : Except Failure (Owned V) := do
  let taken ← entries (" in " ++ c.baseFile) s.2 (base.get? s.1)
  let values ← layer.entries s.1 s.2
  values.foldlM (claim layer.owner s.1 taken) owned

/-- `_load_sources`, for the owners that are included. -/
def loadSources (c : LayeredJsonConfig V) (included : String → Bool) (base : Document V) :
    Except Failure (Owned V) :=
  (c.layers.filter (fun layer => included layer.owner)).foldlM
    (fun owned layer => c.sections.foldlM (claimSection c base layer) owned) []

/-- `_load_sources(include_inactive=True)` -/
def loadAll (c : LayeredJsonConfig V) (base : Document V) : Except Failure (Owned V) :=
  loadSources c (fun _ => true) base

def firstSeen (names : List String) : List String := names.reverse.dedup.reverse

/-- `allowed[owner][section]` holds the id. -/
def allowed (all : Owned V) (owner name id : String) : Bool :=
  (all.get? (name, id)).any (fun item => item.owner = owner)

/-- The sections of `allowed[owner]`. -/
def allowedSections (all : Owned V) (owner : String) : List String :=
  firstSeen ((all.filter (fun e => e.2.owner = owner)).map (·.1.1))

def pick {κ ν : Type} (keys : List κ) (f : κ → Option ν) : Dict κ ν :=
  keys.filterMap (fun key => (f key).map (fun value => (key, value)))

def fits (c : LayeredJsonConfig V) (name id : String) (value : V) : Bool :=
  decide (name ∉ c.listSections) || decide (JsonValue.idText value = some id)

def filteredValues (c : LayeredJsonConfig V) (all : Owned V) (owner : String)
    (data : RawOwnerData V) (name : String) : Dict String V :=
  let values := (((data.values.getD []).get? name).getD (some [])).getD []
  pick values.keys (fun id =>
    (values.get? id).filter (fun value => allowed all owner name id && fits c name id value))

/-- `filtered_deleted`: a sorted list without duplicates. -/
def filteredDeleted (all : Owned V) (owner : String) (data : RawOwnerData V) (name : String) :
    List String :=
  let ids := (((data.deleted.getD []).get? name).getD (some [])).getD []
  (ids.filter (fun id => allowed all owner name id)).dedup.mergeSort (fun a b => decide (a ≤ b))

/-- `none` for an empty list. -/
def nonempty {α : Type} (l : List α) : Option (List α) := if l.isEmpty then none else some l

def OwnerData.kept (data : OwnerData V) : Option (OwnerData V) :=
  if data.values.isEmpty && data.deleted.isEmpty then none else some data

/-- What `_sanitize_overrides` leaves of the overrides of an owner. -/
def sanitizeOwner (c : LayeredJsonConfig V) (all : Owned V) (owner : String)
    (data : RawOwnerData V) : OwnerData V where
  values := pick (allowedSections all owner) (fun name =>
    nonempty (filteredValues c all owner data name))
  deleted := pick (allowedSections all owner) (fun name =>
    nonempty (filteredDeleted all owner data name))

/-- `_sanitize_overrides` -/
def sanitize (c : LayeredJsonConfig V) (all : Owned V) (raw : RawOverrides V) : Overrides V :=
  pick (Dict.keys (raw.getD [])) (fun owner =>
    ((raw.getD []).get? owner).join.bind (fun data =>
      if all.any (fun e => e.2.owner = owner) then (sanitizeOwner c all owner data).kept else none))

/-- `values.pop(item_id, None)` -/
def pop (values : Dict String V) (id : String) : Dict String V := values.filter (fun e => e.1 ≠ id)

/-- What `_update_overrides` makes of the overrides of a section for an item. -/
def change (resolved : Dict String V) (e : String × OwnedItem V) (values : Dict String V)
    (deleted : List String) : Dict String V × List String :=
  match resolved.get? e.1 with
  | none => (pop values e.1, if e.1 ∈ deleted then deleted else deleted ++ [e.1])
  | some value =>
    if JsonValue.same value e.2.value then (pop values e.1, deleted.erase e.1)
    else (values.set e.1 value, deleted.erase e.1)

/-- One round of `_update_overrides`. -/
def putItem (name : String) (resolved : Dict String V) (overrides : Overrides V)
    (e : String × OwnedItem V) : Overrides V :=
  let data := (overrides.get? e.2.owner).getD {}
  let after := change resolved e ((data.values.get? name).getD []) ((data.deleted.get? name).getD [])
  overrides.set e.2.owner
    { values := data.values.set name after.1, deleted := data.deleted.set name after.2 }

def OwnerData.prune (data : OwnerData V) : OwnerData V where
  values := pick data.values.keys (fun name => (data.values.get? name).bind nonempty)
  deleted := pick data.deleted.keys (fun name => (data.deleted.get? name).bind nonempty)

def prune (overrides : Overrides V) : Overrides V :=
  pick overrides.keys (fun owner => (overrides.get? owner).bind (fun data => data.prune.kept))

def sectionItems (owned : Owned V) (name : String) : List (String × OwnedItem V) :=
  (owned.filter (fun e => e.1.1 = name)).map (fun e => (e.1.2, e.2))

def updateOverrides (name : String) (resolved : Dict String V) (owned : Owned V)
    (overrides : Overrides V) : Overrides V :=
  prune ((sectionItems owned name).foldl (putItem name resolved) overrides)

def edit (f : Dict String V → Dict String V) (doc : Document V) (s : String × Kind) :
    Except Failure (Document V) := do
  let values ← entries "" s.2 (doc.get? s.1)
  .ok (doc.set s.1 (node s.2 (f values)))

def OwnerData.apply (data : OwnerData V) (name : String) (values : Dict String V) :
    Dict String V :=
  ((data.deleted.get? name).getD []).foldl pop (values.update ((data.values.get? name).getD []))

def applyOwner (c : LayeredJsonConfig V) (enabled : String → Bool) (doc : Document V)
    (e : String × OwnerData V) : Except Failure (Document V) :=
  if enabled e.1 then c.sections.foldlM (fun doc s => edit (e.2.apply s.1) doc s) doc else .ok doc

def addOwned (c : LayeredJsonConfig V) (doc : Document V)
    (e : (String × String) × OwnedItem V) : Except Failure (Document V) :=
  edit (fun values => values.set e.1.2 e.2.value) doc (e.1.1, c.kind e.1.1)

def load (c : LayeredJsonConfig V) (enabled : String → Bool) (files : Files V) :
    Except Failure (Document V) := do
  let owned ← loadSources c enabled files.base
  let all ← loadAll c files.base
  let result ← owned.foldlM (addOwned c) files.base
  (sanitize c all files.overrides).foldlM (applyOwner c enabled) result

/-- One section of `save`. -/
def saveSection (owned all : Owned V) (resolved : Document V) (acc : Document V × Overrides V)
    (s : String × Kind) : Except Failure (Document V × Overrides V) := do
  let values ← entries "" s.2 (resolved.get? s.1)
  .ok (acc.1.set s.1 (node s.2 (values.filter (fun e => !all.has (s.1, e.1)))),
    updateOverrides s.1 values owned acc.2)

def copyOthers (c : LayeredJsonConfig V) (resolved base : Document V) : Document V :=
  resolved.foldl (fun base e =>
    if e.1 ∈ c.dictSections ++ c.listSections then base else base.set e.1 e.2) base

/-- `save`: the files that it leaves; on an error nothing has been written. -/
def save (c : LayeredJsonConfig V) (enabled : String → Bool) (files : Files V)
    (resolved : Document V) : Except Failure (Files V) := do
  let owned ← loadSources c enabled files.base
  let all ← loadAll c files.base
  let saved ← c.sections.foldlM (saveSection owned all resolved)
    (files.base, sanitize c all files.overrides)
  .ok { base := copyOthers c resolved saved.1, overrides := (sanitize c all saved.2.raw).raw }

end

/-! ## Mappings that are picked, and sections that are read back -/

section
variable {V : Type}

lemma get?_pick {κ ν : Type} [DecidableEq κ] (keys : List κ) (f : κ → Option ν) (key : κ) :
    (pick keys f).get? key = if key ∈ keys then f key else none := by
  induction keys with
  | nil => rfl
  | cons first rest ih =>
    rw [pick, filterMap_cons]
    cases hfirst : f first with
    | none =>
      show (pick rest f).get? key = _
      rw [ih]
      by_cases heq : key = first
      · subst heq
        rw [if_pos mem_cons_self, hfirst, ite_self]
      simp [heq]
    | some value =>
      show Dict.get? ((first, value) :: pick rest f) key = _
      rw [get?_cons, ih]
      by_cases heq : first = key
      · subst heq
        rw [if_pos rfl, if_pos mem_cons_self, hfirst]
      simp [heq, Ne.symm heq]

lemma get?_of_mem_pick {κ ν : Type} [DecidableEq κ] {keys : List κ} {f : κ → Option ν}
    {e : κ × ν} (h : e ∈ pick keys f) : (pick keys f).get? e.1 = some e.2 := by
  obtain ⟨_, hkey, hvalue⟩ := mem_filterMap.1 h
  obtain ⟨_, hf, rfl⟩ := Option.map_eq_some_iff.1 hvalue
  rw [get?_pick, if_pos hkey, hf]

lemma mem_keys_iff {κ ν : Type} [DecidableEq κ] {d : Dict κ ν} {key : κ} :
    key ∈ d.keys ↔ (d.get? key).isSome := by
  rw [← has_iff, Dict.has, any_eq_true, Dict.keys, mem_map]
  simp only [decide_eq_true_eq]

lemma get?_pick_keys {κ ν μ : Type} [DecidableEq κ] (d : Dict κ ν) (f : κ → ν → Option μ)
    (key : κ) :
    (pick d.keys (fun k => (d.get? k).bind (f k))).get? key = (d.get? key).bind (f key) := by
  rw [get?_pick]
  by_cases hmem : key ∈ d.keys
  · rw [if_pos hmem]
  have hnone := Option.not_isSome_iff_eq_none.1 (mt mem_keys_iff.2 hmem)
  rw [if_neg hmem, hnone]
  rfl

lemma get?_update_of_agree {κ ν : Type} [DecidableEq κ] {other : Dict κ ν}
    (h : ∀ e ∈ other, other.get? e.1 = some e.2) (d : Dict κ ν) (key : κ) :
    (d.update other).get? key = (other.get? key).or (d.get? key) := by
  have hfold := get?_foldl_set (fun e : κ × ν => e.1) (fun e => e.2) other d key
  show (other.foldl (fun acc e => acc.set e.1 e.2) d).get? key = _
  rw [hfold]
  congr 1
  cases hfind : other.reverse.find? (fun e => e.1 = key) with
  | some e =>
    have hkey : e.1 = key := by simpa using find?_some hfind
    have hmem := mem_reverse.1 (mem_of_find?_eq_some hfind)
    rw [← hkey, h e hmem]
    rfl
  | none =>
    have hnone : key ∉ other.keys := by
      intro hmem
      obtain ⟨e, he, rfl⟩ := mem_map.1 hmem
      have hnot := find?_eq_none.1 hfind e (mem_reverse.2 he)
      exact hnot (decide_eq_true rfl)
    rw [Option.not_isSome_iff_eq_none.1 (mt mem_keys_iff.2 hnone)]
    rfl

lemma get?_pop (values : Dict String V) (id other : String) :
    (pop values id).get? other = if other = id then none else values.get? other := by
  rw [pop, get?_filter_keys values (fun key => decide (key ≠ id)) other]
  by_cases heq : other = id
  · rw [if_pos heq, if_neg (by rw [decide_eq_true_eq]; exact not_not.2 heq)]
  rw [if_neg heq, if_pos (decide_eq_true heq)]

lemma get?_foldl_pop (ids : List String) (values : Dict String V) (id : String) :
    (ids.foldl pop values).get? id = if id ∈ ids then none else values.get? id := by
  induction ids generalizing values with
  | nil => rfl
  | cons first rest ih =>
    rw [foldl_cons, ih, get?_pop]
    by_cases hrest : id ∈ rest
    · rw [if_pos hrest, if_pos (mem_cons_of_mem _ hrest)]
    by_cases heq : id = first
    · rw [if_neg hrest, if_pos heq, if_pos (heq ▸ mem_cons_self)]
    rw [if_neg hrest, if_neg heq, if_neg (by simp [heq, hrest])]

variable [JsonValue V]

/-- The values of a list section stand under their own ids. -/
structure Keyed (values : Dict String V) : Prop where
  nodup : values.keys.Nodup
  ids : ∀ id value, values.get? id = some value → itemId value = some id

lemma Keyed.set {values : Dict String V} (h : Keyed values) {id : String} {value : V}
    (hid : itemId value = some id) : Keyed (values.set id value) := by
  refine ⟨nodup_keys_set h.nodup id value, fun other found hget => ?_⟩
  rw [get?_set] at hget
  split at hget
  · next heq =>
    obtain rfl := Option.some.inj hget
    exact heq ▸ hid
  exact h.ids other found hget

lemma Keyed.filter {values : Dict String V} (h : Keyed values) (p : String × V → Bool) :
    Keyed (values.filter p) := by
  have hsub : (values.filter p).Sublist values := filter_sublist
  have hnodup : (Dict.keys (values.filter p)).Nodup := h.nodup.sublist (hsub.map _)
  refine ⟨hnodup, fun id value hget => h.ids id value ?_⟩
  exact get?_of_mem h.nodup (hsub.subset (mem_of_get? hget))

lemma listById_keyed {label : String} {items : List V} {acc values : Dict String V}
    (hacc : Keyed acc) (h : items.foldlM (addItem label) acc = .ok values) : Keyed values := by
  induction items generalizing acc with
  | nil =>
    obtain rfl := ok.inj h
    exact hacc
  | cons item rest ih =>
    rw [foldlM_cons] at h
    unfold addItem at h
    cases hid : itemId item with
    | none =>
      rw [hid] at h
      cases h
    | some =>
      rw [hid] at h
      exact ih (hacc.set hid) h

lemma keyed_nil : Keyed ([] : Dict String V) := ⟨nodup_nil, nofun⟩

lemma entries_keyed {label : String} {n : Option (Node V)} {values : Dict String V}
    (h : entries label .list n = .ok values) : Keyed values := by
  unfold entries at h
  split at h
  · contradiction
  · contradiction
  · contradiction
  · exact ok.inj h ▸ keyed_nil
  · exact listById_keyed keyed_nil h
  · exact ok.inj h ▸ keyed_nil
  · exact ok.inj h ▸ keyed_nil
  cases h

lemma listById_values {label : String} {values acc : Dict String V}
    (hids : ∀ e ∈ values, itemId e.2 = some e.1) (hnodup : values.keys.Nodup)
    (hnew : ∀ id ∈ values.keys, id ∉ acc.keys) :
    (values.map (·.2)).foldlM (addItem label) acc = .ok (acc ++ values) := by
  induction values generalizing acc with
  | nil => rw [append_nil]; rfl
  | cons e rest ih =>
    obtain ⟨hfirst, hrest⟩ := nodup_cons.1 hnodup
    have hadd : addItem label acc e.2 = .ok (acc ++ [e]) := by
      rw [addItem, hids e mem_cons_self]
      simp only
      rw [set_of_notMem (hnew e.1 mem_cons_self)]
    rw [map_cons, foldlM_cons, hadd]
    show (rest.map (·.2)).foldlM (addItem label) (acc ++ [e]) = _
    rw [ih (fun g hg => hids g (mem_cons_of_mem _ hg)) hrest, append_assoc]
    · rfl
    intro id hid hmem
    rw [Dict.keys, map_append, mem_append] at hmem
    rcases hmem with hmem | hmem
    · exact hnew id (mem_cons_of_mem _ hid) hmem
    exact hfirst (mem_singleton.1 hmem ▸ hid)

lemma entries_node {label : String} {kind : Kind} {values : Dict String V}
    (h : kind = .list → Keyed values) : entries label kind (some (node kind values)) = .ok values := by
  cases kind with
  | dict => rfl
  | list =>
    have hk := h rfl
    exact listById_values (fun e he => hk.ids e.1 e.2 (get?_of_mem hk.nodup he)) hk.nodup
      (nofun)

lemma entries_label {label other : String} {kind : Kind} {n : Option (Node V)}
    {values : Dict String V} (h : entries label kind n = .ok values) :
    entries other kind n = .ok values := by
  have hitems : ∀ (items : List V) (acc : Dict String V),
      items.foldlM (addItem label) acc = .ok values →
        items.foldlM (addItem other) acc = .ok values := by
    intro items
    induction items with
    | nil => exact fun acc h => h
    | cons item rest ih =>
      intro acc h
      rw [foldlM_cons] at h ⊢
      unfold addItem at h ⊢
      cases hid : itemId item with
      | none =>
        rw [hid] at h
        cases h
      | some =>
        rw [hid] at h
        exact ih _ h
  unfold entries at h ⊢
  split at h
  all_goals first
    | exact h
    | exact hitems _ _ h
    | cases h

end

/-! ## What the layers own -/

section
variable {V : Type}

lemma foldlM_append_iff {κ ν α : Type} {f : Dict κ ν → α → Except Failure (Dict κ ν)}
    {g : α → Dict κ ν} {P : α → Prop} {l : List α}
    (hstep : ∀ a ∈ l, ∀ d : Dict κ ν, d.keys.Nodup → ∀ out,
      f d a = .ok out ↔ out = d ++ g a ∧ P a ∧ (Dict.keys (d ++ g a)).Nodup)
    {d : Dict κ ν} (hd : d.keys.Nodup) (out : Dict κ ν) : l.foldlM f d = .ok out
      ↔ out = d ++ l.flatMap g ∧ (∀ a ∈ l, P a) ∧ (Dict.keys (d ++ l.flatMap g)).Nodup := by
  induction l generalizing d with
  | nil =>
    rw [foldlM_nil, flatMap_nil, append_nil]
    constructor
    · exact fun h => ⟨(ok.inj h).symm, nofun, hd⟩
    rintro ⟨rfl, -, -⟩
    rfl
  | cons a rest ih =>
    have hfirst := hstep a mem_cons_self d hd
    have hrest := fun b hb => hstep b (mem_cons_of_mem _ hb)
    rw [foldlM_cons, flatMap_cons, ← append_assoc]
    constructor
    · intro h
      cases hrun : f d a with
      | error =>
        rw [hrun] at h
        cases h
      | ok next =>
        rw [hrun] at h
        obtain ⟨rfl, hgood, hnodup⟩ := (hfirst next).1 hrun
        obtain ⟨hout, hall, hkeys⟩ := (ih hrest hnodup).1 h
        refine ⟨hout, fun b hb => ?_, hkeys⟩
        rcases mem_cons.1 hb with rfl | hb
        · exact hgood
        exact hall b hb
    rintro ⟨hout, hgood, hkeys⟩
    have hnodup : (Dict.keys (d ++ g a)).Nodup := by
      rw [Dict.keys, map_append] at hkeys
      exact (nodup_append.1 hkeys).1
    rw [(hfirst (d ++ g a)).2 ⟨rfl, hgood a mem_cons_self, hnodup⟩]
    exact (ih hrest hnodup).2 ⟨hout, fun b hb => hgood b (mem_cons_of_mem _ hb), hkeys⟩

variable [JsonValue V]

def Layer.items (layer : Layer V) (s : String × Kind) : Dict String V :=
  match layer.entries s.1 s.2 with
  | .ok values => values
  | .error _ => []

def Layer.claims (layer : Layer V) (s : String × Kind) : Owned V :=
  (layer.items s).map (fun e => ((s.1, e.1), { owner := layer.owner, value := e.2 }))

def claims (c : LayeredJsonConfig V) (layers : List (Layer V)) : Owned V :=
  layers.flatMap (fun layer => c.sections.flatMap layer.claims)

def SectionLoads (base : Document V) (layer : Layer V) (s : String × Kind) : Prop :=
  ∃ taken values, entries "" s.2 (base.get? s.1) = .ok taken ∧ layer.entries s.1 s.2 = .ok values
    ∧ ∀ id ∈ values.keys, taken.get? id = none

omit [JsonValue V] in
lemma claim_eq_ok_iff {owner name : String} {base : Dict String V} {owned out : Owned V}
    {e : String × V} : claim owner name base owned e = .ok out
      ↔ out = owned ++ [((name, e.1), { owner := owner, value := e.2 })] ∧ base.get? e.1 = none
        ∧ (name, e.1) ∉ owned.keys := by
  unfold claim
  have hbase : base.has e.1 = (base.get? e.1).isSome := by
    rw [Bool.eq_iff_iff]
    exact has_iff base e.1
  have howned : owned.has (name, e.1) = true ↔ (name, e.1) ∈ owned.keys := by
    rw [mem_keys_iff]
    exact has_iff owned _
  split
  · next htaken =>
    constructor
    · intro h
      cases h
    rintro ⟨-, hfree, hnew⟩
    rcases (Bool.or_eq_true _ _ ▸ htaken : _ ∨ _) with h | h
    · rw [hbase, hfree] at h
      cases h
    exact absurd (howned.1 h) hnew
  next hfree =>
  have hparts := not_or.1 (fun hor => hfree (Bool.or_eq_true _ _ ▸ hor))
  have hnone : base.get? e.1 = none := by
    rw [hbase] at hparts
    exact Option.not_isSome_iff_eq_none.1 hparts.1
  have hnew : (name, e.1) ∉ owned.keys := fun hmem => hparts.2 (howned.2 hmem)
  rw [set_of_notMem hnew]
  constructor
  · exact fun h => ⟨(ok.inj h).symm, hnone, hnew⟩
  rintro ⟨rfl, -, -⟩
  rfl

omit [JsonValue V] in
lemma foldlM_claim_iff {owner name : String} {base : Dict String V} {values : Dict String V}
    {owned : Owned V} (hnodup : owned.keys.Nodup) (out : Owned V) :
    values.foldlM (claim owner name base) owned = .ok out
      ↔ out = owned ++ values.map (fun e => ((name, e.1), { owner := owner, value := e.2 }))
        ∧ (∀ e ∈ values, base.get? e.1 = none)
        ∧ (Dict.keys (owned ++ values.map (fun e =>
            ((name, e.1), ({ owner := owner, value := e.2 } : OwnedItem V))))).Nodup := by
  have hflat : values.flatMap (fun e =>
        [((name, e.1), ({ owner := owner, value := e.2 } : OwnedItem V))])
      = values.map (fun e => ((name, e.1), { owner := owner, value := e.2 })) :=
    map_eq_flatMap.symm
  rw [← hflat]
  apply foldlM_append_iff _ hnodup
  intro e _ _ hd out
  rw [claim_eq_ok_iff]
  constructor
  · rintro ⟨hout, hfree, hnew⟩
    refine ⟨hout, hfree, ?_⟩
    rw [Dict.keys, map_append, nodup_append]
    refine ⟨hd, nodup_cons.2 ⟨not_mem_nil, nodup_nil⟩, ?_⟩
    rintro key hkey other hother rfl
    rw [mem_singleton.1 hother] at hkey
    exact hnew hkey
  rintro ⟨hout, hfree, hkeys⟩
  refine ⟨hout, hfree, fun hmem => ?_⟩
  rw [Dict.keys, map_append, nodup_append] at hkeys
  exact hkeys.2.2 _ hmem _ (mem_singleton.2 rfl) rfl

lemma claimSection_iff {c : LayeredJsonConfig V} {base : Document V} {layer : Layer V}
    {s : String × Kind} {owned : Owned V} (hnodup : owned.keys.Nodup) (out : Owned V) :
    claimSection c base layer owned s = .ok out
      ↔ out = owned ++ layer.claims s ∧ SectionLoads base layer s
        ∧ (Dict.keys (owned ++ layer.claims s)).Nodup := by
  unfold claimSection SectionLoads Layer.claims Layer.items
  constructor
  · intro h
    cases hbase : entries (" in " ++ c.baseFile) s.2 (base.get? s.1) with
    | error =>
      rw [hbase] at h
      cases h
    | ok taken =>
      cases hlayer : layer.entries s.1 s.2 with
      | error =>
        rw [hbase, hlayer] at h
        cases h
      | ok values =>
        rw [hbase, hlayer] at h
        obtain ⟨hout, hfree, hkeys⟩ := (foldlM_claim_iff hnodup out).1 h
        refine ⟨hout, ⟨taken, values, entries_label hbase, rfl, fun _ hid => ?_⟩, hkeys⟩
        obtain ⟨e, he, rfl⟩ := mem_map.1 hid
        exact hfree e he
  rintro ⟨hout, ⟨taken, values, hbase, hlayer, hfree⟩, hkeys⟩
  rw [hlayer] at hout hkeys
  rw [entries_label hbase, hlayer]
  exact (foldlM_claim_iff hnodup out).2
    ⟨hout, fun e he => hfree e.1 (mem_map_of_mem he), hkeys⟩

lemma loadSources_eq_ok_iff {c : LayeredJsonConfig V} {included : String → Bool}
    {base : Document V} (out : Owned V) : loadSources c included base = .ok out
      ↔ out = claims c (c.layers.filter (fun layer => included layer.owner))
        ∧ (∀ layer ∈ c.layers, included layer.owner = true →
            ∀ s ∈ c.sections, SectionLoads base layer s)
        ∧ (claims c (c.layers.filter (fun layer => included layer.owner))).keys.Nodup := by
  have hfold : ∀ layers : List (Layer V),
      layers.foldlM (fun owned layer => c.sections.foldlM (claimSection c base layer) owned)
          ([] : Owned V) = .ok out
        ↔ out = [] ++ claims c layers ∧ (∀ layer ∈ layers, ∀ s ∈ c.sections, SectionLoads base layer s)
          ∧ (Dict.keys ([] ++ claims c layers)).Nodup := by
    intro layers
    apply foldlM_append_iff (g := fun layer => c.sections.flatMap layer.claims)
      (P := fun layer => ∀ s ∈ c.sections, SectionLoads base layer s) _
      (show (Dict.keys ([] : Owned V)).Nodup from nodup_nil)
    intro layer _ _ hd out
    exact foldlM_append_iff (g := layer.claims) (P := SectionLoads base layer)
      (fun s _ owned howned out => claimSection_iff howned out) hd out
  unfold loadSources
  rw [hfold, nil_append]
  simp only [mem_filter, and_imp]

lemma claims_filter (c : LayeredJsonConfig V) (included : String → Bool)
    (layers : List (Layer V)) : claims c (layers.filter (fun layer => included layer.owner))
      = (claims c layers).filter (fun e => included e.2.owner) := by
  have hlayer : ∀ layer : Layer V, (c.sections.flatMap layer.claims).filter
        (fun e => included e.2.owner)
      = if included layer.owner then c.sections.flatMap layer.claims else [] := by
    intro layer
    split
    · next hon =>
      apply filter_eq_self.2
      intro e he
      obtain ⟨s, -, hs⟩ := mem_flatMap.1 he
      obtain ⟨g, -, rfl⟩ := mem_map.1 hs
      exact hon
    next hoff =>
    apply filter_eq_nil_iff.2
    intro e he
    obtain ⟨s, -, hs⟩ := mem_flatMap.1 he
    obtain ⟨g, -, rfl⟩ := mem_map.1 hs
    exact hoff
  induction layers with
  | nil => rfl
  | cons layer rest ih =>
    unfold claims at ih ⊢
    rw [flatMap_cons, filter_append, hlayer layer, ← ih, filter_cons]
    split
    · rw [flatMap_cons]
    rw [nil_append]

end
end DeterminFlow.Plugins.Layered
