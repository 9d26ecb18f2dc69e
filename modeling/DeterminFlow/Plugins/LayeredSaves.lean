/-
  Plugins.LayeredSaves
  **WHAT IS SAVED IS LOADED.**

  `save` splits a resolved document into a base file and overrides; `load` puts
  the two together.  An id that only an inactive layer owns belongs to neither.
-/
import DeterminFlow.Plugins.LayeredConfig

namespace DeterminFlow.Plugins.Layered

open Library List Dict OwnerData Except
open Option (any_eq_true any_some bind_eq_some_iff bind_some filter_some getD_some
  ne_none_iff_exists' none_or not_isSome_iff_eq_none some.inj)

/-! ## What overrides say -/

section
variable {V : Type}

def OwnerData.value (data : OwnerData V) (name id : String) : Option V :=
  (data.values.get? name).bind (·.get? id)

def OwnerData.Deletes (data : OwnerData V) (name id : String) : Prop :=
  id ∈ (data.deleted.get? name).getD []

def Overrides.value (overrides : Overrides V) (owner name id : String) : Option V :=
  (overrides.get? owner).bind (·.value name id)

def Overrides.Deletes (overrides : Overrides V) (owner name id : String) : Prop :=
  ∃ data, overrides.get? owner = some data ∧ data.Deletes name id

def RawOwnerData.value (data : RawOwnerData V) (name id : String) : Option V :=
  ((((data.values.getD []).get? name).getD (some [])).getD []).get? id

def RawOwnerData.Deletes (data : RawOwnerData V) (name id : String) : Prop :=
  id ∈ (((data.deleted.getD []).get? name).getD (some [])).getD []

def RawOverrides.value (raw : RawOverrides V) (owner name id : String) : Option V :=
  ((raw.getD []).get? owner).join.bind (·.value name id)

def RawOverrides.Deletes (raw : RawOverrides V) (owner name id : String) : Prop :=
  ∃ data, ((raw.getD []).get? owner).join = some data ∧ data.Deletes name id

lemma bind_nonempty {d : Dict String V} (id : String) :
    (nonempty d).bind (fun values => Dict.get? values id) = d.get? id := by
  unfold nonempty
  cases d with
  | _ => rfl

lemma getD_nonempty (ids : List String) : (nonempty ids).getD [] = ids := by
  unfold nonempty
  cases ids with
  | _ => rfl

lemma OwnerData.kept_value (data : OwnerData V) (name id : String) :
    data.kept.bind (·.value name id) = data.value name id := by
  unfold OwnerData.kept
  split
  · next hempty =>
    rw [Bool.and_eq_true] at hempty
    rw [OwnerData.value, isEmpty_iff.1 hempty.1]
    rfl
  rfl

lemma OwnerData.kept_deletes (data : OwnerData V) (name id : String) :
    (∃ kept, data.kept = some kept ∧ kept.Deletes name id) ↔ data.Deletes name id := by
  unfold OwnerData.kept
  split
  · next hempty =>
    rw [Bool.and_eq_true] at hempty
    rw [OwnerData.Deletes, isEmpty_iff.1 hempty.2]
    simp
  simp

lemma raw_value (overrides : Overrides V) (owner name id : String) :
    overrides.raw.value owner name id = overrides.value owner name id := by
  unfold RawOverrides.value Overrides.raw Overrides.value
  rw [getD_some, get?_mapValues]
  cases overrides.get? owner with
  | none => rfl
  | some data =>
    show ((((data.values.mapValues (fun _ values => some values)).get? name).getD
      (some [])).getD []).get? id = (data.values.get? name).bind (·.get? id)
    rw [get?_mapValues]
    cases data.values.get? name with
    | _ => rfl

lemma raw_deletes (overrides : Overrides V) (owner name id : String) :
    overrides.raw.Deletes owner name id ↔ overrides.Deletes owner name id := by
  unfold RawOverrides.Deletes Overrides.raw Overrides.Deletes
  rw [getD_some, get?_mapValues]
  cases overrides.get? owner with
  | none => simp
  | some data =>
    have hids : data.raw.Deletes name id ↔ data.Deletes name id := by
      show id ∈ (((data.deleted.mapValues (fun _ ids => some ids)).get? name).getD (some [])).getD []
        ↔ id ∈ (data.deleted.get? name).getD []
      rw [get?_mapValues]
      cases data.deleted.get? name with
      | _ => exact Iff.rfl
    simp [hids]

variable [JsonValue V] {c : LayeredJsonConfig V} {all : Owned V}

lemma mem_firstSeen {names : List String} {name : String} : name ∈ firstSeen names ↔ name ∈ names := by
  rw [firstSeen, mem_reverse, mem_dedup, mem_reverse]

omit [JsonValue V] in
lemma mem_allowedSections {owner name id : String} (h : allowed all owner name id = true) :
    name ∈ allowedSections all owner := by
  unfold allowed at h
  obtain ⟨item, hitem, howner⟩ := (any_eq_true _ _).1 h
  refine mem_firstSeen.2 (mem_map.2 ⟨((name, id), item), ?_, rfl⟩)
  exact mem_filter.2 ⟨mem_of_get? hitem, howner⟩

variable {data : RawOwnerData V}

lemma get?_filteredValues {owner : String} {name id : String} :
    (filteredValues c all owner data name).get? id
      = (data.value name id).filter
        (fun value => allowed all owner name id && fits c name id value) := by
  unfold filteredValues RawOwnerData.value
  simp only
  rw [get?_pick]
  split
  · rfl
  next hmem =>
  rw [not_isSome_iff_eq_none.1 (mt mem_keys_iff.2 hmem)]
  rfl

omit [JsonValue V] in
lemma mem_filteredDeleted {owner : String} {name id : String} :
    id ∈ filteredDeleted all owner data name
      ↔ data.Deletes name id ∧ allowed all owner name id = true := by
  unfold filteredDeleted RawOwnerData.Deletes
  simp only
  rw [mem_mergeSort, mem_dedup, mem_filter]

lemma sanitizeOwner_value {owner : String} {name id : String} :
    (sanitizeOwner c all owner data).value name id
      = (data.value name id).filter
        (fun value => allowed all owner name id && fits c name id value) := by
  rw [← get?_filteredValues]
  unfold sanitizeOwner OwnerData.value
  simp only
  rw [get?_pick]
  split
  · exact bind_nonempty id
  next hsection =>
  have hnot : allowed all owner name id = false :=
    Bool.not_eq_true _ ▸ fun h => hsection (mem_allowedSections h)
  rw [get?_filteredValues, hnot]
  simp

lemma sanitizeOwner_deletes {owner : String} {name id : String} :
    (sanitizeOwner c all owner data).Deletes name id
      ↔ data.Deletes name id ∧ allowed all owner name id = true := by
  rw [← mem_filteredDeleted]
  unfold sanitizeOwner OwnerData.Deletes
  simp only
  rw [get?_pick]
  split
  · rw [getD_nonempty]
  next hsection =>
  rw [mem_filteredDeleted]
  constructor
  · exact fun h => absurd h not_mem_nil
  exact fun h => absurd (mem_allowedSections h.2) hsection

omit [JsonValue V] in
lemma allowed_owner {owner name id : String} (h : allowed all owner name id = true) :
    all.any (fun e => e.2.owner = owner) = true := by
  unfold allowed at h
  obtain ⟨_, hitem, howner⟩ := (any_eq_true _ _).1 h
  exact any_eq_true.2 ⟨_, mem_of_get? hitem, howner⟩

lemma get?_sanitize {raw : RawOverrides V} {owner : String} :
    (sanitize c all raw).get? owner = ((raw.getD []).get? owner).join.bind (fun data =>
      if all.any (fun e => e.2.owner = owner) then (sanitizeOwner c all owner data).kept
      else none) := by
  rw [sanitize, get?_pick]
  split
  · rfl
  next hmem =>
  rw [not_isSome_iff_eq_none.1 (mt mem_keys_iff.2 hmem)]
  rfl

lemma sanitize_value (raw : RawOverrides V) (owner name id : String) :
    (sanitize c all raw).value owner name id = (raw.value owner name id).filter
      (fun value => allowed all owner name id && fits c name id value) := by
  unfold Overrides.value RawOverrides.value
  rw [get?_sanitize]
  cases ((raw.getD []).get? owner).join with
  | none => rfl
  | some data =>
    simp only [bind_some]
    rw [← sanitizeOwner_value]
    split
    · exact kept_value _ name id
    next hnobody =>
    have hnot : allowed all owner name id = false :=
      Bool.not_eq_true _ ▸ fun h => hnobody (allowed_owner h)
    rw [sanitizeOwner_value, hnot]
    simp

lemma sanitize_deletes (raw : RawOverrides V) (owner name id : String) :
    (sanitize c all raw).Deletes owner name id
      ↔ raw.Deletes owner name id ∧ allowed all owner name id = true := by
  unfold Overrides.Deletes RawOverrides.Deletes
  rw [get?_sanitize]
  cases ((raw.getD []).get? owner).join with
  | none => simp
  | some data =>
    simp only [bind_some, Option.some.injEq, exists_eq_left']
    split
    · rw [kept_deletes, sanitizeOwner_deletes]
    next hnobody =>
    constructor
    · rintro ⟨_, hkept, -⟩
      cases hkept
    exact fun h => absurd (allowed_owner h.2) hnobody

end

/-! ## What a save changes -/

section
variable {V : Type}

def Distinct (overrides : Overrides V) : Prop :=
  ∀ owner data name, overrides.get? owner = some data →
    ((data.deleted.get? name).getD []).Nodup

lemma prune_value (overrides : Overrides V) (owner name id : String) :
    (prune overrides).value owner name id = overrides.value owner name id := by
  unfold Overrides.value prune
  rw [get?_pick_keys overrides (fun _ data => data.prune.kept)]
  cases overrides.get? owner with
  | none => rfl
  | some data =>
    simp only [bind_some]
    rw [kept_value]
    unfold OwnerData.value OwnerData.prune
    simp only
    rw [get?_pick_keys data.values (fun _ values => nonempty values)]
    cases data.values.get? name with
    | none => rfl
    | some => exact bind_nonempty id

lemma prune_ids (data : OwnerData V) (name : String) :
    (data.prune.deleted.get? name).getD [] = (data.deleted.get? name).getD [] := by
  unfold OwnerData.prune
  simp only
  rw [get?_pick_keys data.deleted (fun _ ids => nonempty ids)]
  cases data.deleted.get? name with
  | none => rfl
  | some ids => exact getD_nonempty ids

lemma prune_deletes (overrides : Overrides V) (owner name id : String) :
    (prune overrides).Deletes owner name id ↔ overrides.Deletes owner name id := by
  unfold Overrides.Deletes prune
  rw [get?_pick_keys overrides (fun _ data => data.prune.kept)]
  cases overrides.get? owner with
  | none => simp
  | some =>
    simp only [bind_some, Option.some.injEq, exists_eq_left']
    rw [kept_deletes, OwnerData.Deletes, OwnerData.Deletes, prune_ids]

lemma Distinct.prune {overrides : Overrides V} (h : Distinct overrides) :
    Distinct (prune overrides) := by
  intro owner data name hget
  rw [Layered.prune, get?_pick_keys overrides (fun _ data => data.prune.kept)] at hget
  obtain ⟨old, hold, hkept⟩ := bind_eq_some_iff.1 hget
  unfold OwnerData.kept at hkept
  split at hkept
  · cases hkept
  obtain rfl := some.inj hkept
  rw [prune_ids]
  exact h owner old name hold

variable [JsonValue V]

def wanted (resolved : Dict String V) (id : String) (item : OwnedItem V) : Option V :=
  (resolved.get? id).filter (fun value => !JsonValue.same value item.value)

lemma change_value (resolved : Dict String V) (e : String × OwnedItem V) (values : Dict String V)
    (deleted : List String) (id : String) :
    (change resolved e values deleted).1.get? id
      = if id = e.1 then wanted resolved id e.2 else values.get? id := by
  unfold change wanted
  by_cases heq : id = e.1
  · subst heq
    rw [if_pos rfl]
    cases resolved.get? e.1 with
    | none => exact (get?_pop values e.1 e.1).trans (if_pos rfl)
    | some value =>
      simp only [filter_some]
      cases JsonValue.same value e.2.value with
      | true => exact (get?_pop values e.1 e.1).trans (if_pos rfl)
      | false => exact (get?_set values e.1 e.1 value).trans (if_pos rfl)
  rw [if_neg heq]
  split
  · exact (get?_pop values e.1 id).trans (if_neg heq)
  split
  · exact (get?_pop values e.1 id).trans (if_neg heq)
  exact (get?_set values e.1 id _).trans (if_neg (Ne.symm heq))

variable {deleted : List String} {resolved values : Dict String V} {e : String × OwnedItem V}
  {overrides : Overrides V} {owned : Owned V}

lemma change_deleted (hnodup : deleted.Nodup) (id : String) :
    id ∈ (change resolved e values deleted).2
      ↔ if id = e.1 then resolved.get? id = none else id ∈ deleted := by
  unfold change
  by_cases heq : id = e.1
  · subst heq
    rw [if_pos rfl]
    cases hget : resolved.get? e.1 with
    | none =>
      simp only [iff_true]
      split
      · next hmem => exact hmem
      exact mem_append_right _ (mem_singleton.2 rfl)
    | some =>
      have herased : e.1 ∉ deleted.erase e.1 := fun hmem =>
        ((List.Nodup.mem_erase_iff hnodup).1 hmem).1 rfl
      simp only [reduceCtorEq, iff_false]
      split
      all_goals exact herased
  rw [if_neg heq]
  have herased : id ∈ deleted.erase e.1 ↔ id ∈ deleted := by
    rw [List.Nodup.mem_erase_iff hnodup]
    exact and_iff_right heq
  split
  · split
    · exact Iff.rfl
    simp [heq]
  split
  all_goals exact herased

lemma change_nodup (hnodup : deleted.Nodup) :
    (change resolved e values deleted).2.Nodup := by
  unfold change
  split
  · split
    · exact hnodup
    next hnew =>
    refine nodup_append.2 ⟨hnodup, nodup_cons.2 ⟨not_mem_nil, nodup_nil⟩, ?_⟩
    rintro a ha b hb rfl
    exact hnew (mem_singleton.1 hb ▸ ha)
  split
  all_goals exact hnodup.erase _

omit [JsonValue V] in
lemma getD_value (overrides : Overrides V) (owner name id : String) :
    ((overrides.get? owner).getD {}).value name id = overrides.value owner name id := by
  unfold Overrides.value
  cases overrides.get? owner with
  | _ => rfl

omit [JsonValue V] in
lemma getD_deletes (overrides : Overrides V) (owner name id : String) :
    ((overrides.get? owner).getD {}).Deletes name id ↔ overrides.Deletes owner name id := by
  unfold Overrides.Deletes
  cases overrides.get? owner with
  | none => simp [OwnerData.Deletes]
  | some => simp

omit [JsonValue V] in
lemma Distinct.getD (h : Distinct overrides) (owner name : String) :
    ((((overrides.get? owner).getD {}).deleted.get? name).getD []).Nodup := by
  cases hget : overrides.get? owner with
  | none => exact nodup_nil
  | some data => exact h owner data name hget

lemma putItem_value (name : String) (resolved : Dict String V) (overrides : Overrides V)
    (e : String × OwnedItem V) (owner other id : String) :
    (putItem name resolved overrides e).value owner other id
      = if e.2.owner = owner ∧ other = name ∧ id = e.1 then wanted resolved id e.2
        else overrides.value owner other id := by
  unfold putItem
  simp only
  rw [Overrides.value, get?_set]
  by_cases howner : e.2.owner = owner
  · subst howner
    rw [if_pos rfl]
    simp only [bind_some, OwnerData.value, get?_set]
    by_cases hname : name = other
    · subst hname
      rw [if_pos rfl]
      simp only [bind_some, change_value, true_and]
      split
      · rfl
      rw [← getD_value, OwnerData.value]
      cases (((overrides.get? e.2.owner).getD {}).values.get? name) with
      | _ => rfl
    rw [if_neg hname, if_neg (fun h => hname h.2.1.symm)]
    exact getD_value overrides _ other id
  rw [if_neg howner, if_neg (fun h => howner h.1)]
  rfl

lemma putItem_deletes {name : String} (hdistinct : Distinct overrides) (e : String × OwnedItem V)
    (owner other id : String) :
    (putItem name resolved overrides e).Deletes owner other id
      ↔ if e.2.owner = owner ∧ other = name ∧ id = e.1 then resolved.get? id = none
        else overrides.Deletes owner other id := by
  unfold putItem
  simp only
  rw [Overrides.Deletes, get?_set]
  by_cases howner : e.2.owner = owner
  · subst howner
    rw [if_pos rfl]
    simp only [Option.some.injEq, exists_eq_left', OwnerData.Deletes, get?_set]
    by_cases hname : name = other
    · subst hname
      rw [if_pos rfl]
      simp only [getD_some, true_and]
      rw [change_deleted (hdistinct.getD _ _)]
      split
      · exact Iff.rfl
      exact getD_deletes overrides _ name id
    rw [if_neg hname, if_neg (fun h => hname h.2.1.symm)]
    exact getD_deletes overrides _ other id
  rw [if_neg howner, if_neg (fun h => howner h.1)]
  rfl

lemma Distinct.putItem {name : String} {resolved : Dict String V} {overrides : Overrides V}
    (h : Distinct overrides) (e : String × OwnedItem V) :
    Distinct (putItem name resolved overrides e) := by
  intro owner data other hget
  unfold Layered.putItem at hget
  simp only at hget
  rw [get?_set] at hget
  split at hget
  · obtain rfl := some.inj hget
    simp only [get?_set]
    split
    · exact change_nodup (h.getD _ _)
    exact h.getD _ _
  exact h owner data other hget

def ownItem (items : Dict String (OwnedItem V)) (owner id : String) : Option (OwnedItem V) :=
  (items.get? id).filter (fun item => item.owner = owner)

omit [JsonValue V] in
lemma ownItem_cons {rest : Dict String (OwnedItem V)} (hnew : e.1 ∉ rest.keys)
    (owner id : String) :
    ownItem (e :: rest) owner id
      = if e.2.owner = owner ∧ id = e.1 then some e.2 else ownItem rest owner id := by
  unfold ownItem
  rw [get?_cons]
  by_cases heq : e.1 = id
  · subst heq
    have hnone : rest.get? e.1 = none := not_isSome_iff_eq_none.1 (mt mem_keys_iff.2 hnew)
    rw [if_pos rfl, hnone, filter_some]
    simp
  rw [if_neg heq, if_neg (fun h => heq h.2.symm)]

lemma foldl_putItem_value {name : String} {items : Dict String (OwnedItem V)}
    (hnodup : items.keys.Nodup) (overrides : Overrides V) (owner other id : String) :
    (items.foldl (putItem name resolved) overrides).value owner other id
      = if other = name then
          (ownItem items owner id).elim (overrides.value owner other id) (wanted resolved id)
        else overrides.value owner other id := by
  induction items generalizing overrides with
  | nil => exact (ite_self _).symm
  | cons e rest ih =>
    obtain ⟨hfirst, hrest⟩ := nodup_cons.1 hnodup
    rw [foldl_cons, ih hrest, putItem_value, ownItem_cons hfirst]
    by_cases hname : other = name
    · rw [if_pos hname, if_pos hname]
      by_cases hown : e.2.owner = owner ∧ id = e.1
      · have hnone : ownItem rest owner id = none := by
          rw [ownItem, hown.2, not_isSome_iff_eq_none.1 (mt mem_keys_iff.2 hfirst)]
          rfl
        rw [if_pos hown, if_pos ⟨hown.1, hname, hown.2⟩, hnone]
        rfl
      rw [if_neg hown, if_neg (fun h => hown ⟨h.1, h.2.2⟩)]
    rw [if_neg hname, if_neg hname, if_neg (fun h => hname h.2.1)]

lemma foldl_putItem_deletes {name : String} {resolved : Dict String V}
    {items : Dict String (OwnedItem V)} (hnodup : items.keys.Nodup) {overrides : Overrides V}
    (hdistinct : Distinct overrides) (owner other id : String) :
    ((items.foldl (putItem name resolved) overrides).Deletes owner other id
      ↔ if other = name ∧ (ownItem items owner id).isSome then resolved.get? id = none
        else overrides.Deletes owner other id)
      ∧ Distinct (items.foldl (putItem name resolved) overrides) := by
  induction items generalizing overrides with
  | nil =>
    refine ⟨?_, hdistinct⟩
    rw [if_neg (fun h => nomatch h.2)]
    exact Iff.rfl
  | cons e rest ih =>
    obtain ⟨hfirst, hrest⟩ := nodup_cons.1 hnodup
    obtain ⟨hdeletes, hafter⟩ := ih hrest (hdistinct.putItem e)
    refine ⟨?_, hafter⟩
    rw [foldl_cons, hdeletes, ownItem_cons hfirst]
    by_cases hown : e.2.owner = owner ∧ id = e.1
    · have hnone : ownItem rest owner id = none := by
        rw [ownItem, hown.2, not_isSome_iff_eq_none.1 (mt mem_keys_iff.2 hfirst)]
        rfl
      rw [if_pos hown, hnone, if_neg (fun h => nomatch h.2), putItem_deletes hdistinct]
      by_cases hname : other = name
      · rw [if_pos ⟨hown.1, hname, hown.2⟩, if_pos ⟨hname, rfl⟩]
      rw [if_neg (fun h => hname h.2.1), if_neg (fun h => hname h.1)]
    have hput : (putItem name resolved overrides e).Deletes owner other id
        ↔ overrides.Deletes owner other id := by
      rw [putItem_deletes hdistinct, if_neg (fun h => hown ⟨h.1, h.2.2⟩)]
    rw [if_neg hown, hput]

def ownedBy (owned : Owned V) (owner name id : String) : Option (OwnedItem V) :=
  (owned.get? (name, id)).filter (fun item => item.owner = owner)

omit [JsonValue V] in
lemma get?_sectionItems (owned : Owned V) (name id : String) :
    Dict.get? (sectionItems owned name) id = owned.get? (name, id) := by
  unfold sectionItems
  induction owned with
  | nil => rfl
  | cons e rest ih =>
    rw [get?_cons, filter_cons]
    by_cases hname : e.1.1 = name
    · rw [if_pos (decide_eq_true hname), map_cons, get?_cons, ih]
      by_cases hid : e.1.2 = id
      · rw [if_pos hid, if_pos (Prod.ext hname hid)]
      rw [if_neg hid, if_neg (fun h => hid (congrArg Prod.snd h))]
    rw [if_neg (by rw [decide_eq_true_eq]; exact hname), ih,
      if_neg (fun h => hname (congrArg Prod.fst h))]

omit [JsonValue V] in
lemma nodup_sectionItems (h : owned.keys.Nodup) (name : String) :
    (Dict.keys (sectionItems owned name)).Nodup := by
  have hpairs : ((owned.filter (fun e => e.1.1 = name)).map (·.1)).Nodup :=
    h.sublist (filter_sublist.map _)
  unfold sectionItems
  rw [Dict.keys, map_map]
  have hids : (owned.filter (fun e => e.1.1 = name)).map
        ((fun e : String × OwnedItem V => e.1) ∘ fun e => (e.1.2, e.2))
      = ((owned.filter (fun e => e.1.1 = name)).map (·.1)).map Prod.snd := by
    rw [map_map]
    rfl
  rw [hids]
  refine List.Nodup.map_on ?_ hpairs
  intro _ ha _ hb heq
  obtain ⟨e, he, rfl⟩ := mem_map.1 ha
  obtain ⟨_, hg, rfl⟩ := mem_map.1 hb
  have hfirst := of_decide_eq_true (mem_filter.1 he).2
  have hsecond := of_decide_eq_true (mem_filter.1 hg).2
  exact Prod.ext (hfirst.trans hsecond.symm) heq

lemma updateOverrides_value (hnodup : owned.keys.Nodup) (name : String) (resolved : Dict String V)
    (overrides : Overrides V) (owner other id : String) :
    (updateOverrides name resolved owned overrides).value owner other id
      = if other = name then
          (ownedBy owned owner other id).elim (overrides.value owner other id) (wanted resolved id)
        else overrides.value owner other id := by
  rw [updateOverrides, prune_value, foldl_putItem_value (nodup_sectionItems hnodup name)]
  unfold ownItem ownedBy
  rw [get?_sectionItems]
  by_cases hname : other = name
  · rw [hname]
  rw [if_neg hname, if_neg hname]

lemma updateOverrides_deletes {owned : Owned V} (hnodup : owned.keys.Nodup) {name : String}
    {resolved : Dict String V} {overrides : Overrides V} (hdistinct : Distinct overrides)
    (owner other id : String) :
    ((updateOverrides name resolved owned overrides).Deletes owner other id
      ↔ if other = name ∧ (ownedBy owned owner other id).isSome then resolved.get? id = none
        else overrides.Deletes owner other id)
      ∧ Distinct (updateOverrides name resolved owned overrides) := by
  obtain ⟨hdeletes, hafter⟩ := @foldl_putItem_deletes V _ name resolved _
    (nodup_sectionItems hnodup name) overrides hdistinct owner other id
  refine ⟨?_, hafter.prune⟩
  rw [updateOverrides, prune_deletes, hdeletes]
  unfold ownItem ownedBy
  rw [get?_sectionItems]
  by_cases hname : other = name
  · rw [hname]
  rw [if_neg (fun h => hname h.1), if_neg (fun h => hname h.1)]

end

/-! ## What is loaded -/

section
variable {V : Type} {c : LayeredJsonConfig V}

lemma sections_names (c : LayeredJsonConfig V) :
    c.sections.map (·.1) = c.dictSections ++ c.listSections := by
  simp [LayeredJsonConfig.sections, Function.comp_def]

variable {s : String × Kind} {doc : Document V} {L : String → String → Option V}
  {data : OwnerData V} {owners : Overrides V} {enabled : String → Bool}

lemma kind_eq (h : s ∈ c.sections) : c.kind s.1 = s.2 := by
  unfold LayeredJsonConfig.kind
  rcases mem_append.1 h with hdict | hlist
  · obtain ⟨name, hname, rfl⟩ := mem_map.1 hdict
    exact if_pos hname
  obtain ⟨name, hname, rfl⟩ := mem_map.1 hlist
  exact if_neg (fun hmem => (nodup_append.1 c.nodup).2.2 name hmem name hname rfl)

lemma eq_of_name {t : String × Kind} (hs : s ∈ c.sections) (ht : t ∈ c.sections) (h : s.1 = t.1) :
    s = t :=
  Prod.ext h (by rw [← kind_eq hs, ← kind_eq ht, h])

variable [JsonValue V]

def Reads (c : LayeredJsonConfig V) (doc : Document V) (L : String → String → Option V) : Prop :=
  ∀ s ∈ c.sections, ∃ values, entries "" s.2 (doc.get? s.1) = .ok values
    ∧ ∀ id, values.get? id = L s.1 id

lemma Reads.congr {M : String → String → Option V} (h : Reads c doc L)
    (heq : ∀ s ∈ c.sections, ∀ id, L s.1 id = M s.1 id) : Reads c doc M := by
  intro s hs
  obtain ⟨values, hread, hget⟩ := h s hs
  exact ⟨values, hread, fun id => (hget id).trans (heq s hs id)⟩

lemma Reads.edit (h : Reads c doc L) (hs : s ∈ c.sections) {f : Dict String V → Dict String V}
    {g : String → Option V} (hkeyed : ∀ values, s.2 = .list → Keyed values → Keyed (f values))
    (hget : ∀ values : Dict String V, (∀ id, values.get? id = L s.1 id) →
      ∀ id, (f values).get? id = g id) :
    ∃ after, Layered.edit f doc s = .ok after
      ∧ Reads c after (fun name id => if name = s.1 then g id else L name id) := by
  obtain ⟨values, hread, hvalues⟩ := h s hs
  refine ⟨doc.set s.1 (node s.2 (f values)), ?_, ?_⟩
  · unfold Layered.edit
    rw [hread]
    rfl
  intro t ht
  by_cases heq : t.1 = s.1
  · obtain rfl := eq_of_name ht hs heq
    refine ⟨f values, ?_, fun id => ?_⟩
    · rw [get?_set, if_pos rfl]
      apply entries_node
      intro hlist
      rw [hlist] at hread
      exact hkeyed values hlist (entries_keyed hread)
    simp only [if_true]
    exact hget values hvalues id
  obtain ⟨other, hother, hsame⟩ := h t ht
  refine ⟨other, ?_, fun id => ?_⟩
  · rw [get?_set_ne doc _ (Ne.symm heq)]
    exact hother
  simp only [if_neg heq]
  exact hsame id

def Placed (c : LayeredJsonConfig V) (e : (String × String) × OwnedItem V) : Prop :=
  (e.1.1, c.kind e.1.1) ∈ c.sections ∧ (c.kind e.1.1 = .list → itemId e.2.value = some e.1.2)

lemma claims_placed {layers : List (Layer V)} {e : (String × String) × OwnedItem V}
    (he : e ∈ claims c layers) :
    Placed c e ∧ ∃ layer ∈ layers, layer.owner = e.2.owner
      ∧ (layer.items (e.1.1, c.kind e.1.1)).get? e.1.2 ≠ none := by
  obtain ⟨layer, hlayer, he⟩ := mem_flatMap.1 he
  obtain ⟨s, hs, he⟩ := mem_flatMap.1 he
  obtain ⟨g, hg, rfl⟩ := mem_map.1 he
  have hkind := kind_eq hs
  refine ⟨⟨?_, fun hlist => ?_⟩, layer, hlayer, rfl, fun hnone => ?_⟩
  · show (s.1, c.kind s.1) ∈ c.sections
    rw [hkind]
    exact hs
  · rw [hkind] at hlist
    unfold Layer.items at hg
    split at hg
    · next values hvalues =>
      rw [hlist] at hvalues
      have hk : Keyed values := entries_keyed hvalues
      exact hk.ids g.1 g.2 (get?_of_mem hk.nodup hg)
    cases hg
  have hmem : g.1 ∈ Dict.keys (layer.items (s.1, c.kind s.1)) := by
    rw [hkind]
    exact mem_map_of_mem hg
  have hsome := mem_keys_iff.1 hmem
  rw [hnone] at hsome
  cases hsome

lemma Reads.addOwned {items : Owned V} (hnodup : items.keys.Nodup)
    (hplaced : ∀ e ∈ items, Placed c e) (h : Reads c doc L) :
    ∃ after, items.foldlM (Layered.addOwned c) doc = .ok after
      ∧ Reads c after (fun name id =>
        ((items.get? (name, id)).map (·.value)).or (L name id)) := by
  induction items generalizing doc L with
  | nil => exact ⟨doc, rfl, h⟩
  | cons e rest ih =>
    obtain ⟨hfirst, hrest⟩ := nodup_cons.1 hnodup
    obtain ⟨hsection, hid⟩ := hplaced e mem_cons_self
    obtain ⟨_, hrun, hnext⟩ := h.edit hsection
      (f := fun values => values.set e.1.2 e.2.value)
      (g := fun id => if id = e.1.2 then some e.2.value else L e.1.1 id)
      (fun values hlist hk => hk.set (hid hlist))
      (fun values hvalues id => by
        rw [get?_set]
        by_cases heq : id = e.1.2
        · rw [if_pos heq, if_pos heq.symm]
        rw [if_neg heq, if_neg (Ne.symm heq), hvalues])
    obtain ⟨after, hafter, hreads⟩ := ih hrest (fun g hg => hplaced g (mem_cons_of_mem _ hg)) hnext
    refine ⟨after, ?_, hreads.congr (fun s _ id => ?_)⟩
    · rw [foldlM_cons]
      unfold Layered.addOwned at hafter ⊢
      rw [hrun]
      exact hafter
    rw [get?_cons]
    by_cases hkey : e.1 = (s.1, id)
    · have hnone : Dict.get? rest (s.1, id) = none :=
        not_isSome_iff_eq_none.1 (mt mem_keys_iff.2 (hkey ▸ hfirst))
      rw [if_pos hkey, hnone, hkey]
      simp
    rw [if_neg hkey]
    by_cases hname : s.1 = e.1.1
    · have hne : id ≠ e.1.2 := fun heq => hkey (Prod.ext hname.symm heq.symm)
      rw [if_pos hname, if_neg hne, hname]
    rw [if_neg hname]

instance (data : OwnerData V) (name id : String) : Decidable (data.Deletes name id) :=
  inferInstanceAs (Decidable (id ∈ _))

def OwnerData.over (data : OwnerData V) (name id : String) (old : Option V) : Option V :=
  if data.Deletes name id then none else (data.value name id).or old

def Fit (c : LayeredJsonConfig V) (data : OwnerData V) : Prop :=
  ∀ s ∈ c.sections,
    (∀ e ∈ (data.values.get? s.1).getD [], ((data.values.get? s.1).getD []).get? e.1 = some e.2)
      ∧ (s.2 = .list → ∀ id value, data.value s.1 id = some value → itemId value = some id)

omit [JsonValue V] in
lemma OwnerData.value_eq (data : OwnerData V) (name id : String) :
    data.value name id = ((data.values.get? name).getD []).get? id := by
  unfold OwnerData.value
  cases data.values.get? name with
  | _ => rfl

omit [JsonValue V] in
lemma get?_apply {name : String}
    (hagree : ∀ e ∈ (data.values.get? name).getD [],
      ((data.values.get? name).getD []).get? e.1 = some e.2) (values : Dict String V) (id : String) :
    (data.apply name values).get? id = data.over name id (values.get? id) := by
  rw [OwnerData.apply, get?_foldl_pop, get?_update_of_agree hagree, OwnerData.over, value_eq]
  rfl

lemma keyed_apply {name : String}
    (hagree : ∀ e ∈ (data.values.get? name).getD [],
      ((data.values.get? name).getD []).get? e.1 = some e.2)
    (hids : ∀ id value, data.value name id = some value → itemId value = some id)
    {values : Dict String V} (h : Keyed values) : Keyed (data.apply name values) := by
  have hupdate : Keyed (values.update ((data.values.get? name).getD [])) := by
    refine ⟨nodup_keys_update h.nodup _, fun id value hget => ?_⟩
    rw [get?_update_of_agree hagree, ← value_eq] at hget
    cases hvalue : data.value name id with
    | none =>
      rw [hvalue, none_or] at hget
      exact h.ids id value hget
    | some own =>
      rw [hvalue, Option.some_or] at hget
      exact some.inj hget ▸ hids id own hvalue
  have hpops : ∀ (ids : List String) (d : Dict String V), Keyed d → Keyed (ids.foldl pop d) := by
    intro ids
    induction ids with
    | nil => exact fun d hd => hd
    | cons id rest ih => exact fun d hd => ih _ (hd.filter _)
  exact hpops _ _ hupdate

lemma Reads.applySections (hfit : Fit c data) {todo : List (String × Kind)}
    (htodo : ∀ s ∈ todo, s ∈ c.sections) (hnodup : (todo.map (·.1)).Nodup) (h : Reads c doc L) :
    ∃ after, todo.foldlM (fun doc s => Layered.edit (data.apply s.1) doc s) doc = .ok after
      ∧ Reads c after (fun name id =>
        if name ∈ todo.map (·.1) then data.over name id (L name id) else L name id) := by
  induction todo generalizing doc L with
  | nil => exact ⟨doc, rfl, h.congr (fun s _ id => (if_neg not_mem_nil).symm)⟩
  | cons t rest ih =>
    obtain ⟨hfirst, hrest⟩ := nodup_cons.1 hnodup
    have ht := htodo t mem_cons_self
    obtain ⟨hagree, hids⟩ := hfit t ht
    obtain ⟨_, hrun, hnext⟩ := h.edit ht (f := data.apply t.1)
      (g := fun id => data.over t.1 id (L t.1 id))
      (fun values hlist hk => keyed_apply hagree (hids hlist) hk)
      (fun values hvalues id => by rw [get?_apply hagree, hvalues])
    obtain ⟨after, hafter, hreads⟩ := ih (fun s hs => htodo s (mem_cons_of_mem _ hs)) hrest hnext
    refine ⟨after, ?_, hreads.congr (fun s hs id => ?_)⟩
    · rw [foldlM_cons, hrun]
      exact hafter
    rw [map_cons]
    by_cases heq : s.1 = t.1
    · rw [heq, if_neg hfirst, if_pos rfl, if_pos mem_cons_self]
    by_cases hmem : s.1 ∈ rest.map (·.1)
    · rw [if_pos hmem, if_pos (mem_cons_of_mem _ hmem), if_neg heq]
    rw [if_neg hmem, if_neg heq, if_neg (fun h => (mem_cons.1 h).elim heq hmem)]

lemma Reads.applyOwners (hfit : ∀ e ∈ owners, enabled e.1 = true → Fit c e.2)
    (h : Reads c doc L) :
    ∃ after, owners.foldlM (applyOwner c enabled) doc = .ok after
      ∧ Reads c after (fun name id => owners.foldl
        (fun old e => if enabled e.1 then e.2.over name id old else old) (L name id)) := by
  induction owners generalizing doc L with
  | nil => exact ⟨doc, rfl, h⟩
  | cons e rest ih =>
    have hlater := fun g hg => hfit g (mem_cons_of_mem e hg)
    cases hon : enabled e.1 with
    | false =>
      obtain ⟨after, hafter, hreads⟩ := ih hlater h
      refine ⟨after, ?_, hreads.congr (fun s hs id => ?_)⟩
      · rw [foldlM_cons, applyOwner, hon]
        exact hafter
      rw [foldl_cons, hon]
      rfl
    | true =>
      obtain ⟨_, hrun, hnext⟩ := h.applySections (hfit e mem_cons_self hon)
        (fun s hs => hs) (by rw [sections_names]; exact c.nodup)
      obtain ⟨after, hafter, hreads⟩ := ih hlater hnext
      refine ⟨after, ?_, hreads.congr (fun s hs id => ?_)⟩
      · rw [foldlM_cons, applyOwner, hon, if_pos rfl, hrun]
        exact hafter
      rw [foldl_cons, hon, if_pos rfl, if_pos (mem_map_of_mem hs)]

omit [JsonValue V] in
lemma foldl_over_none {name id : String}
    (h : ∀ e ∈ owners, enabled e.1 = true → e.2.value name id = none ∧ ¬ e.2.Deletes name id)
    (old : Option V) :
    owners.foldl (fun old e => if enabled e.1 then e.2.over name id old else old) old = old := by
  induction owners with
  | nil => rfl
  | cons e rest ih =>
    have hfirst : (if enabled e.1 then e.2.over name id old else old) = old := by
      split
      · next hon =>
        obtain ⟨hvalue, hkept⟩ := h e mem_cons_self hon
        rw [OwnerData.over, if_neg hkept, hvalue, none_or]
      rfl
    rw [foldl_cons, hfirst]
    exact ih (fun g hg => h g (mem_cons_of_mem _ hg))

omit [JsonValue V] in
lemma over_over (data : OwnerData V) (name id : String) (old : Option V) :
    data.over name id (data.over name id old) = data.over name id old := by
  unfold OwnerData.over
  split
  · rfl
  cases data.value name id with
  | _ => rfl

omit [JsonValue V] in
lemma foldl_over_own {owner name id : String} (hon : enabled owner = true)
    (hmem : owner ∈ owners.keys) (hown : ∀ e ∈ owners, e.1 = owner → e.2 = data)
    (hothers : ∀ e ∈ owners, e.1 ≠ owner → e.2.value name id = none ∧ ¬ e.2.Deletes name id)
    (old : Option V) :
    owners.foldl (fun old e => if enabled e.1 then e.2.over name id old else old) old
      = data.over name id old := by
  induction owners generalizing old with
  | nil => cases hmem
  | cons e rest ih =>
    have hown' := fun g hg => hown g (mem_cons_of_mem _ hg)
    have hothers' := fun g hg => hothers g (mem_cons_of_mem _ hg)
    rw [foldl_cons]
    by_cases heq : e.1 = owner
    · have hdata := hown e mem_cons_self heq
      rw [heq, hon, if_pos rfl, hdata]
      by_cases hrest : owner ∈ Dict.keys rest
      · rw [ih hrest hown' hothers', over_over]
      apply foldl_over_none
      intro g hg _
      exact hothers' g hg (fun h => hrest (h ▸ mem_map_of_mem hg))
    have hrest : owner ∈ Dict.keys rest :=
      (mem_cons.1 hmem).resolve_left (fun h => heq h.symm)
    rw [ih hrest hown' hothers']
    obtain ⟨hvalue, hkept⟩ := hothers e mem_cons_self heq
    have hfirst : (if enabled e.1 then e.2.over name id old else old) = old := by
      split
      · rw [OwnerData.over, if_neg hkept, hvalue, none_or]
      rfl
    rw [hfirst]

end

/-! ## What is saved -/

section
variable {V : Type} [JsonValue V] {c : LayeredJsonConfig V}

def WellFormed (c : LayeredJsonConfig V) (resolved : Document V) : Prop :=
  ∀ s ∈ c.sections, ∃ values, entries "" s.2 (resolved.get? s.1) = .ok values

def sectionOf (c : LayeredJsonConfig V) (resolved : Document V) (name : String) : Dict String V :=
  match entries "" (c.kind name) (resolved.get? name) with
  | .ok values => values
  | .error _ => []

variable {resolved : Document V} {todo : List (String × Kind)} {owned all : Owned V}

lemma entries_sectionOf {s : String × Kind} (hs : s ∈ c.sections) {values : Dict String V}
    (h : entries "" s.2 (resolved.get? s.1) = .ok values) :
    sectionOf c resolved s.1 = values := by
  unfold sectionOf
  rw [kind_eq hs, h]

/-- What `save` has after some sections. -/
structure Saved (c : LayeredJsonConfig V) (owned all : Owned V) (resolved : Document V)
    (names : List String) (before after : Document V × Overrides V) : Prop where
  base : ∀ name, after.1.get? name = if name ∈ names then
      some (node (c.kind name) ((sectionOf c resolved name).filter (fun e => !all.has (name, e.1))))
    else before.1.get? name
  value : ∀ owner name id, after.2.value owner name id = if name ∈ names then
      (ownedBy owned owner name id).elim (before.2.value owner name id)
        (wanted (sectionOf c resolved name) id)
    else before.2.value owner name id
  deletes : ∀ owner name id, after.2.Deletes owner name id
    ↔ if name ∈ names ∧ (ownedBy owned owner name id).isSome then
        (sectionOf c resolved name).get? id = none
      else before.2.Deletes owner name id
  distinct : Distinct after.2

lemma saved_sections (hnodup : owned.keys.Nodup) (htodo : ∀ s ∈ todo, s ∈ c.sections)
    (hnames : (todo.map (·.1)).Nodup) (before : Document V × Overrides V)
    (hdistinct : Distinct before.2)
    (hread : ∀ s ∈ todo, ∃ values, entries "" s.2 (resolved.get? s.1) = .ok values) :
    ∃ after, todo.foldlM (saveSection owned all resolved) before = .ok after
      ∧ Saved c owned all resolved (todo.map (·.1)) before after := by
  induction todo generalizing before with
  | nil =>
    refine ⟨before, rfl, ⟨fun name => (if_neg not_mem_nil).symm,
      fun owner name id => (if_neg not_mem_nil).symm, fun owner name id => ?_, hdistinct⟩⟩
    rw [if_neg (fun h => absurd h.1 not_mem_nil)]
  | cons t rest ih =>
    obtain ⟨hfirst, hrest⟩ := nodup_cons.1 hnames
    have ht := htodo t mem_cons_self
    obtain ⟨values, hvalues⟩ := hread t mem_cons_self
    have hsection := entries_sectionOf ht hvalues
    have hstep : saveSection owned all resolved before t
        = .ok (before.1.set t.1 (node t.2 (values.filter (fun e => !all.has (t.1, e.1)))),
          updateOverrides t.1 values owned before.2) := by
      unfold saveSection
      rw [hvalues]
      rfl
    have hdeletes := fun owner name id =>
      @updateOverrides_deletes V _ owned hnodup t.1 values before.2 hdistinct owner name id
    obtain ⟨after, hrun, hafter⟩ := ih (fun s hs => htodo s (mem_cons_of_mem _ hs)) hrest
      ((before.1.set t.1 (node t.2 (values.filter (fun e => !all.has (t.1, e.1)))),
        updateOverrides t.1 values owned before.2))
      (hdeletes "" "" "").2 (fun s hs => hread s (mem_cons_of_mem _ hs))
    refine ⟨after, ?_, ?_⟩
    · rw [foldlM_cons, hstep]
      exact hrun
    rw [map_cons]
    constructor
    · intro name
      rw [hafter.base]
      by_cases heq : name = t.1
      · subst heq
        rw [if_neg hfirst, if_pos mem_cons_self, get?_set, if_pos rfl, hsection, kind_eq ht]
      rw [get?_set_ne before.1 _ (Ne.symm heq)]
      by_cases hmem : name ∈ rest.map (·.1)
      · rw [if_pos hmem, if_pos (mem_cons_of_mem _ hmem)]
      rw [if_neg hmem, if_neg (fun h => (mem_cons.1 h).elim heq hmem)]
    · intro owner name id
      rw [hafter.value, updateOverrides_value hnodup]
      by_cases heq : name = t.1
      · subst heq
        rw [if_neg hfirst, if_pos rfl, if_pos mem_cons_self, hsection]
      rw [if_neg heq]
      by_cases hmem : name ∈ rest.map (·.1)
      · rw [if_pos hmem, if_pos (mem_cons_of_mem _ hmem)]
      rw [if_neg hmem, if_neg (fun h => (mem_cons.1 h).elim heq hmem)]
    · intro owner name id
      have hupdate := (hdeletes owner name id).1
      rw [hafter.deletes]
      by_cases heq : name = t.1
      · subst heq
        rw [if_neg (fun h => hfirst h.1), hupdate, hsection]
        by_cases howned : (ownedBy owned owner t.1 id).isSome = true
        · rw [if_pos ⟨rfl, howned⟩, if_pos ⟨mem_cons_self, howned⟩]
        rw [if_neg (fun h => howned h.2), if_neg (fun h => howned h.2)]
      have hsame : (updateOverrides t.1 values owned before.2).Deletes owner name id
          ↔ before.2.Deletes owner name id := by
        rw [hupdate, if_neg (fun h => heq h.1)]
      rw [hsame]
      by_cases hmem : name ∈ rest.map (·.1) ∧ (ownedBy owned owner name id).isSome = true
      · rw [if_pos hmem, if_pos ⟨mem_cons_of_mem _ hmem.1, hmem.2⟩]
      rw [if_neg hmem, if_neg (fun h => (mem_cons.1 h.1).elim heq (fun hr => hmem ⟨hr, h.2⟩))]
    exact hafter.distinct

lemma wellFormed_of_saved {before after : Document V × Overrides V}
    (h : todo.foldlM (saveSection owned all resolved) before = .ok after) :
    ∀ s ∈ todo, ∃ values, entries "" s.2 (resolved.get? s.1) = .ok values := by
  induction todo generalizing before with
  | nil => exact nofun
  | cons t rest ih =>
    rw [foldlM_cons] at h
    unfold saveSection at h
    cases hvalues : entries "" t.2 (resolved.get? t.1) with
    | error =>
      rw [hvalues] at h
      cases h
    | ok values =>
      rw [hvalues] at h
      intro s hs
      rcases mem_cons.1 hs with rfl | hs
      · exact ⟨values, hvalues⟩
      exact ih h s hs

omit [JsonValue V] in
lemma get?_copyOthers (resolved : Document V) {base : Document V} {name : String}
    (hname : name ∈ c.dictSections ++ c.listSections) :
    (copyOthers c resolved base).get? name = base.get? name := by
  unfold copyOthers
  induction resolved generalizing base with
  | nil => rfl
  | cons e rest ih =>
    rw [foldl_cons, ih]
    split
    · rfl
    next hother =>
    apply get?_set_ne
    rintro rfl
    exact hother hname

end

/-! ## Saving and loading -/

section
variable {V : Type} [JsonValue V] {c : LayeredJsonConfig V} {enabled : String → Bool}

def OwnedByInactive (c : LayeredJsonConfig V) (enabled : String → Bool) (name id : String) : Prop :=
  ∃ layer ∈ c.layers, enabled layer.owner = false
    ∧ (layer.items (name, c.kind name)).get? id ≠ none

def SameValue (loaded saved : Option V) : Prop :=
  (loaded = none ∧ saved = none)
    ∨ ∃ v w, loaded = some v ∧ saved = some w ∧ (v = w ∨ JsonValue.same w v = true)

/-- **The law of a save**: it fails, or the document is loaded as it is, the base
file holds no id of a layer, and the overrides of inactive owners are as before. -/
def SaveLawful (c : LayeredJsonConfig V) (enabled : String → Bool) (files : Files V)
    (resolved : Document V) : Prop :=
  ∀ after all, save c enabled files resolved = .ok after → loadAll c files.base = .ok all →
    (∃ loaded, load c enabled after = .ok loaded ∧ ∀ s ∈ c.sections, ∃ new old,
        entries "" s.2 (loaded.get? s.1) = .ok new ∧ entries "" s.2 (resolved.get? s.1) = .ok old
          ∧ ∀ id, SameValue (new.get? id) (old.get? id))
      ∧ (∀ s ∈ c.sections, ∃ base, entries "" s.2 (after.base.get? s.1) = .ok base
          ∧ ∀ id, all.has (s.1, id) = true → base.get? id = none)
      ∧ ∀ owner name id, enabled owner = false →
          (sanitize c all after.overrides).value owner name id
              = (sanitize c all files.overrides).value owner name id
            ∧ ((sanitize c all after.overrides).Deletes owner name id
              ↔ (sanitize c all files.overrides).Deletes owner name id)

/-- The sources load: what is owned, by all layers and by the active ones. -/
structure Sources (c : LayeredJsonConfig V) (enabled : String → Bool) (base : Document V)
    (owned all : Owned V) : Prop where
  active : loadSources c enabled base = .ok owned
  every : loadAll c base = .ok all
  filter : owned = all.filter (fun e => enabled e.2.owner)
  claims : all = claims c c.layers
  nodup : all.keys.Nodup
  sections : ∀ layer ∈ c.layers, ∀ s ∈ c.sections, SectionLoads base layer s

lemma sources_of_load {files : Files V} {loaded : Document V}
    (h : load c enabled files = .ok loaded) :
    ∃ owned all, Sources c enabled files.base owned all := by
  unfold load at h
  cases howned : loadSources c enabled files.base with
  | error =>
    rw [howned] at h
    cases h
  | ok owned =>
    cases hall : loadAll c files.base with
    | error =>
      rw [howned, hall] at h
      cases h
    | ok all =>
      obtain ⟨hactive, -, -⟩ := (loadSources_eq_ok_iff owned).1 howned
      obtain ⟨hevery, hsections, hnodup⟩ := (loadSources_eq_ok_iff all).1 hall
      rw [filter_true] at hevery hnodup
      refine ⟨owned, all, howned, hall, ?_, hevery, hevery ▸ hnodup,
        fun layer hlayer => hsections layer hlayer rfl⟩
      rw [hactive, claims_filter, ← hevery]

variable {base : Document V} {owned all : Owned V}

lemma Sources.nodup_owned (h : Sources c enabled base owned all) : owned.keys.Nodup := by
  rw [h.filter]
  exact h.nodup.sublist (filter_sublist.map _)

variable {item : OwnedItem V} {e : String × OwnerData V} {resolved : Document V} {s : String × Kind}
  {saved : Document V × Overrides V}

lemma Sources.get?_owned (h : Sources c enabled base owned all) {key : String × String} :
    owned.get? key = some item ↔ all.get? key = some item ∧ enabled item.owner = true := by
  constructor
  · intro hget
    have hmem := mem_of_get? hget
    rw [h.filter, mem_filter] at hmem
    exact ⟨get?_of_mem h.nodup hmem.1, hmem.2⟩
  rintro ⟨hget, hon⟩
  apply get?_of_mem h.nodup_owned
  rw [h.filter]
  exact mem_filter.2 ⟨mem_of_get? hget, hon⟩

lemma Sources.inactive_iff (h : Sources c enabled base owned all) {name id : String}
    (hsection : (name, c.kind name) ∈ c.sections) :
    OwnedByInactive c enabled name id
      ↔ ∃ item, all.get? (name, id) = some item ∧ enabled item.owner = false := by
  constructor
  · rintro ⟨layer, hlayer, hoff, hitem⟩
    obtain ⟨value, hvalue⟩ := ne_none_iff_exists'.1 hitem
    refine ⟨{ owner := layer.owner, value := value }, get?_of_mem h.nodup ?_, hoff⟩
    rw [h.claims]
    refine mem_flatMap.2 ⟨layer, hlayer, mem_flatMap.2 ⟨_, hsection, ?_⟩⟩
    exact mem_map.2 ⟨(id, value), mem_of_get? hvalue, rfl⟩
  rintro ⟨item, hget, hoff⟩
  have hmem := mem_of_get? hget
  rw [h.claims] at hmem
  obtain ⟨-, layer, hlayer, howner, hitem⟩ := claims_placed hmem
  exact ⟨layer, hlayer, howner ▸ hoff, hitem⟩

lemma Sources.rebase (h : Sources c enabled base owned all) {after : Document V}
    (hafter : ∀ s ∈ c.sections, ∃ values, entries "" s.2 (after.get? s.1) = .ok values
      ∧ ∀ id, all.has (s.1, id) = true → values.get? id = none) :
    Sources c enabled after owned all := by
  have hsections : ∀ layer ∈ c.layers, ∀ s ∈ c.sections, SectionLoads after layer s := by
    intro layer hlayer s hs
    obtain ⟨-, items, -, hitems, -⟩ := h.sections layer hlayer s hs
    obtain ⟨values, hvalues, hnone⟩ := hafter s hs
    refine ⟨values, items, hvalues, hitems, fun id hid => hnone id ?_⟩
    obtain ⟨e, he, rfl⟩ := mem_map.1 hid
    have hclaims : ((s.1, e.1), { owner := layer.owner, value := e.2 }) ∈ all := by
      rw [h.claims]
      refine mem_flatMap.2 ⟨layer, hlayer, mem_flatMap.2 ⟨s, hs, ?_⟩⟩
      refine mem_map.2 ⟨e, ?_, rfl⟩
      unfold Layer.items
      rw [hitems]
      exact he
    exact any_eq_true.2 ⟨_, hclaims, decide_eq_true rfl⟩
  constructor
  · refine (loadSources_eq_ok_iff owned).2 ⟨?_, fun layer hlayer _ => hsections layer hlayer, ?_⟩
    · rw [h.filter, claims_filter, ← h.claims]
    rw [claims_filter, ← h.claims, ← h.filter]
    exact h.nodup_owned
  · refine (loadSources_eq_ok_iff all).2 ⟨?_, fun layer hlayer _ => hsections layer hlayer, ?_⟩
    · rw [filter_true]
      exact h.claims
    rw [filter_true, ← h.claims]
    exact h.nodup
  · exact h.filter
  · exact h.claims
  · exact h.nodup
  exact hsections

/-! What sanitized overrides do to a value. -/

lemma sanitize_agree {raw : RawOverrides V} (he : e ∈ sanitize c all raw) (name id : String) :
    e.2.value name id = (sanitize c all raw).value e.1 name id
      ∧ (e.2.Deletes name id ↔ (sanitize c all raw).Deletes e.1 name id) := by
  have hget : (sanitize c all raw).get? e.1 = some e.2 := get?_of_mem_pick he
  constructor
  · rw [Overrides.value, hget]
    rfl
  unfold Overrides.Deletes
  rw [hget]
  simp

lemma sanitize_foreign {raw : RawOverrides V} {owner name id : String}
    (h : allowed all owner name id = false) :
    (sanitize c all raw).value owner name id = none
      ∧ ¬ (sanitize c all raw).Deletes owner name id := by
  constructor
  · rw [sanitize_value, h]
    simp
  rw [sanitize_deletes, h]
  exact fun hand => nomatch hand.2

lemma over_unowned {raw : RawOverrides V} {name id : String}
    (h : ∀ item, all.get? (name, id) = some item → enabled item.owner = false) (old : Option V) :
    (sanitize c all raw).foldl
      (fun old e => if enabled e.1 then e.2.over name id old else old) old = old := by
  apply foldl_over_none
  intro e he hon
  obtain ⟨hvalue, hdeletes⟩ := sanitize_agree he name id
  have hforeign : allowed all e.1 name id = false := by
    unfold allowed
    cases hget : all.get? (name, id) with
    | none => rfl
    | some item =>
      apply decide_eq_false
      intro howner
      rw [← howner, h item hget] at hon
      cases hon
  rw [hvalue, hdeletes]
  exact sanitize_foreign hforeign

lemma over_owned {raw : RawOverrides V} {name id : String}
    (hget : all.get? (name, id) = some item) (hon : enabled item.owner = true) {wish : Option V}
    (hvalue : (sanitize c all raw).value item.owner name id = wish) {gone : Prop} [Decidable gone]
    (hdeletes : (sanitize c all raw).Deletes item.owner name id ↔ gone) (old : Option V) :
    (sanitize c all raw).foldl
        (fun old e => if enabled e.1 then e.2.over name id old else old) old
      = if gone then none else wish.or old := by
  have hothers : ∀ e ∈ sanitize c all raw, e.1 ≠ item.owner →
      e.2.value name id = none ∧ ¬ e.2.Deletes name id := by
    intro e he hne
    have hforeign : allowed all e.1 name id = false := by
      rw [allowed, hget, any_some]
      exact decide_eq_false (Ne.symm hne)
    rw [(sanitize_agree he name id).1, (sanitize_agree he name id).2]
    exact sanitize_foreign hforeign
  cases hdata : (sanitize c all raw).get? item.owner with
  | none =>
    have hnone : wish = none := by
      rw [← hvalue, Overrides.value, hdata]
      rfl
    have hkept : ¬ gone := by
      rw [← hdeletes]
      rintro ⟨data, hsome, -⟩
      rw [hdata] at hsome
      cases hsome
    rw [if_neg hkept, hnone, none_or]
    apply foldl_over_none
    intro e he _
    apply hothers e he
    intro howner
    have hsome : (sanitize c all raw).get? e.1 = some e.2 := get?_of_mem_pick he
    rw [howner, hdata] at hsome
    cases hsome
  | some data =>
    have hmem : item.owner ∈ (sanitize c all raw).keys := by
      rw [mem_keys_iff, hdata]
      rfl
    have hown : ∀ e ∈ sanitize c all raw, e.1 = item.owner → e.2 = data := by
      intro e he howner
      have hsome : (sanitize c all raw).get? e.1 = some e.2 := get?_of_mem_pick he
      rw [howner, hdata] at hsome
      exact (some.inj hsome).symm
    have hwish : data.value name id = wish := by
      rw [← hvalue, Overrides.value, hdata]
      rfl
    have hgone : data.Deletes name id ↔ gone := by
      rw [← hdeletes, Overrides.Deletes, hdata]
      simp
    rw [foldl_over_own hon hmem hown hothers, OwnerData.over, hwish]
    by_cases hdel : gone
    · rw [if_pos hdel, if_pos (hgone.2 hdel)]
    rw [if_neg hdel, if_neg (mt hgone.1 hdel)]

lemma distinct_sanitize (raw : RawOverrides V) : Distinct (sanitize c all raw) := by
  intro _ _ _ hget
  rw [get?_sanitize] at hget
  obtain ⟨_, -, hkept⟩ := bind_eq_some_iff.1 hget
  split at hkept
  · unfold OwnerData.kept at hkept
    split at hkept
    · cases hkept
    obtain rfl := some.inj hkept
    unfold sanitizeOwner
    simp only
    rw [get?_pick]
    split
    · rw [getD_nonempty]
      exact (mergeSort_perm _ _).nodup_iff.2 (nodup_dedup _)
    exact nodup_nil
  cases hkept

lemma sanitize_lists {raw : RawOverrides V} (he : e ∈ sanitize c all raw) (name : String) :
    ∀ g ∈ (e.2.values.get? name).getD [], ((e.2.values.get? name).getD []).get? g.1 = some g.2 := by
  have hget : (sanitize c all raw).get? e.1 = some e.2 := get?_of_mem_pick he
  rw [get?_sanitize] at hget
  obtain ⟨_, -, hkept⟩ := bind_eq_some_iff.1 hget
  split at hkept
  · unfold OwnerData.kept at hkept
    split at hkept
    · cases hkept
    rw [← some.inj hkept]
    unfold sanitizeOwner
    simp only
    rw [get?_pick]
    split
    · have hlist : ∀ d : Dict String V, (nonempty d).getD [] = d := by
        intro d
        cases d with
        | _ => rfl
      rw [hlist]
      exact fun g hg => get?_of_mem_pick hg
    exact fun g hg => absurd hg not_mem_nil
  cases hkept

lemma load_reads (files : Files V) (h : Sources c enabled files.base owned all)
    {L : String → String → Option V} (hbase : Reads c files.base L)
    (hids : ∀ owner, enabled owner = true → ∀ s ∈ c.sections, s.2 = .list → ∀ id value,
      (sanitize c all files.overrides).value owner s.1 id = some value → itemId value = some id) :
    ∃ loaded, load c enabled files = .ok loaded
      ∧ Reads c loaded (fun name id => (sanitize c all files.overrides).foldl
          (fun old e => if enabled e.1 then e.2.over name id old else old)
          (((owned.get? (name, id)).map (·.value)).or (L name id))) := by
  have hplaced : ∀ e ∈ owned, Placed c e := by
    intro e he
    rw [h.filter, mem_filter, h.claims] at he
    exact (claims_placed he.1).1
  obtain ⟨_, hadd, hnext⟩ := hbase.addOwned h.nodup_owned hplaced
  have hfit : ∀ e ∈ sanitize c all files.overrides, enabled e.1 = true → Fit c e.2 := by
    intro e he hon s hs
    refine ⟨sanitize_lists he s.1, fun hlist id value hvalue => ?_⟩
    rw [(sanitize_agree he s.1 id).1] at hvalue
    exact hids e.1 hon s hs hlist id value hvalue
  obtain ⟨loaded, happly, hreads⟩ := hnext.applyOwners hfit
  refine ⟨loaded, ?_, hreads⟩
  unfold load
  rw [h.active, h.every]
  show (owned.foldlM (addOwned c) files.base >>= _) = _
  rw [hadd]
  exact happly

lemma save_ok {files : Files V} (h : Sources c enabled files.base owned all)
    (hwell : WellFormed c resolved) :
    ∃ saved, Saved c owned all resolved (c.dictSections ++ c.listSections)
        (files.base, sanitize c all files.overrides) saved
      ∧ save c enabled files resolved = .ok
        { base := copyOthers c resolved saved.1
          overrides := (sanitize c all saved.2.raw).raw } := by
  obtain ⟨saved, hrun, hsaved⟩ := saved_sections h.nodup_owned (fun _ hs => hs)
    (by rw [sections_names]; exact c.nodup) (files.base, sanitize c all files.overrides)
    (distinct_sanitize _) hwell
  rw [sections_names] at hsaved
  refine ⟨saved, hsaved, ?_⟩
  unfold save
  rw [h.active, h.every]
  show (c.sections.foldlM (saveSection owned all resolved) _ >>= _) = _
  rw [hrun]
  rfl

lemma wellFormed_of_save {files after : Files V}
    (hsave : save c enabled files resolved = .ok after) : WellFormed c resolved := by
  unfold save at hsave
  cases hactive : loadSources c enabled files.base with
  | error =>
    rw [hactive] at hsave
    cases hsave
  | ok owned =>
    cases hevery : loadAll c files.base with
    | error =>
      rw [hactive, hevery] at hsave
      cases hsave
    | ok all =>
      rw [hactive, hevery] at hsave
      change (c.sections.foldlM (saveSection owned all resolved) _ >>= _) = _ at hsave
      cases hrun : c.sections.foldlM (saveSection owned all resolved)
          (files.base, sanitize c all files.overrides) with
      | error e =>
        rw [hrun] at hsave
        cases hsave
      | ok saved => exact wellFormed_of_saved hrun

/-! The files that a save leaves. -/

omit [JsonValue V] in
lemma mem_names (hs : s ∈ c.sections) :
    s.1 ∈ c.dictSections ++ c.listSections :=
  sections_names c ▸ mem_map_of_mem hs

lemma sectionOf_keyed (hwell : WellFormed c resolved) (hs : s ∈ c.sections)
    (hlist : s.2 = .list) : Keyed (sectionOf c resolved s.1) := by
  obtain ⟨_, hvalues⟩ := hwell s hs
  rw [entries_sectionOf hs hvalues]
  rw [hlist] at hvalues
  exact entries_keyed hvalues

lemma Saved.base_entries {files : Files V} (hwell : WellFormed c resolved)
    (h : Saved c owned all resolved (c.dictSections ++ c.listSections)
      (files.base, sanitize c all files.overrides) saved) (hs : s ∈ c.sections) :
    ∃ values, entries "" s.2 ((copyOthers c resolved saved.1).get? s.1) = .ok values
      ∧ ∀ id, values.get? id
        = if all.has (s.1, id) then none else (sectionOf c resolved s.1).get? id := by
  refine ⟨(sectionOf c resolved s.1).filter (fun e => !all.has (s.1, e.1)), ?_, fun id => ?_⟩
  · rw [get?_copyOthers resolved (mem_names hs), h.base, if_pos (mem_names hs), kind_eq hs]
    exact entries_node (fun hlist => (sectionOf_keyed hwell hs hlist).filter _)
  rw [get?_filter_keys _ (fun key => !all.has (s.1, key))]
  cases all.has (s.1, id) with
  | _ => rfl

lemma Saved.overrides_value {names : List String} {before : Document V × Overrides V}
    (h : Saved c owned all resolved names before saved) {owner name id : String}
    (hname : name ∈ names) :
    (sanitize c all (sanitize c all saved.2.raw).raw).value owner name id
      = ((ownedBy owned owner name id).elim (before.2.value owner name id)
          (wanted (sectionOf c resolved name) id)).filter
        (fun value => allowed all owner name id && fits c name id value) := by
  rw [sanitize_value, raw_value, sanitize_value, raw_value, h.value, if_pos hname,
    Option.filter_filter]
  simp only [Bool.and_self]

lemma sanitize_twice_deletes (overrides : Overrides V) (owner name id : String) :
    (sanitize c all (sanitize c all overrides.raw).raw).Deletes owner name id
      ↔ overrides.Deletes owner name id ∧ allowed all owner name id = true := by
  rw [sanitize_deletes, raw_deletes, sanitize_deletes, raw_deletes, and_assoc, and_self_iff]

lemma Sources.own (h : Sources c enabled base owned all) {name id : String}
    (hget : all.get? (name, id) = some item) (hon : enabled item.owner = true) :
    ownedBy owned item.owner name id = some item ∧ allowed all item.owner name id = true := by
  constructor
  · rw [ownedBy, h.get?_owned.2 ⟨hget, hon⟩, filter_some, if_pos (decide_eq_true rfl)]
  rw [allowed, hget, any_some]
  exact decide_eq_true rfl

lemma wanted_fits (hwell : WellFormed c resolved) (hs : s ∈ c.sections) {id : String} {value : V}
    (h : wanted (sectionOf c resolved s.1) id item = some value) :
    fits c s.1 id value = true ∧ (s.2 = .list → itemId value = some id) := by
  have hget : (sectionOf c resolved s.1).get? id = some value := by
    unfold wanted at h
    exact (Option.filter_eq_some_iff.1 h).1
  have hid : s.2 = .list → itemId value = some id := fun hlist =>
    (sectionOf_keyed hwell hs hlist).ids id value hget
  refine ⟨?_, hid⟩
  unfold fits
  by_cases hlist : s.1 ∈ c.listSections
  · have hkind : s.2 = .list := by
      rw [← kind_eq hs, LayeredJsonConfig.kind, if_neg]
      exact fun hdict => (nodup_append.1 c.nodup).2.2 s.1 hdict s.1 hlist rfl
    have hitem := hid hkind
    unfold itemId at hitem
    split at hitem
    · rw [hitem]
      simp
    cases hitem
  rw [decide_eq_true hlist]
  rfl

lemma load_saved {files : Files V} (h : Sources c enabled files.base owned all)
    (hwell : WellFormed c resolved)
    (hsaved : Saved c owned all resolved (c.dictSections ++ c.listSections)
      (files.base, sanitize c all files.overrides) saved) :
    ∃ loaded L, load c enabled { base := copyOthers c resolved saved.1
                                 overrides := (sanitize c all saved.2.raw).raw } = .ok loaded
      ∧ Reads c loaded L ∧ ∀ s ∈ c.sections, ∀ id,
        (¬ OwnedByInactive c enabled s.1 id →
          SameValue (L s.1 id) ((sectionOf c resolved s.1).get? id))
        ∧ (OwnedByInactive c enabled s.1 id → L s.1 id = none) := by
  have hsources : Sources c enabled (copyOthers c resolved saved.1) owned all := by
    apply h.rebase
    intro s hs
    obtain ⟨values, hread, hget⟩ := hsaved.base_entries hwell hs
    exact ⟨values, hread, fun id hid => by rw [hget, if_pos hid]⟩
  have hbase : Reads c (copyOthers c resolved saved.1) (fun name id =>
      if all.has (name, id) then none else (sectionOf c resolved name).get? id) :=
    fun s hs => hsaved.base_entries hwell hs
  obtain ⟨loaded, hload, hreads⟩ := load_reads { base := copyOthers c resolved saved.1, overrides := _ } hsources hbase (by
    intro owner hon s hs hlist id value hvalue
    have hallowed : allowed all owner s.1 id = true := by
      by_contra hnot
      rw [(sanitize_foreign (Bool.not_eq_true _ ▸ hnot)).1] at hvalue
      cases hvalue
    obtain ⟨item, hitem, howner⟩ := (any_eq_true _ _).1 hallowed
    obtain rfl := of_decide_eq_true howner
    rw [hsaved.overrides_value (mem_names hs), (h.own hitem hon).1] at hvalue
    exact (wanted_fits hwell hs (Option.filter_eq_some_iff.1 hvalue).1).2 hlist)
  refine ⟨loaded, _, hload, hreads, fun s hs id => ?_⟩
  have hsection : (s.1, c.kind s.1) ∈ c.sections := by
    rw [kind_eq hs]
    exact hs
  cases hget : all.get? (s.1, id) with
  | none =>
    have hno : ∀ item, all.get? (s.1, id) = some item → enabled item.owner = false := by
      intro item hitem
      rw [hget] at hitem
      cases hitem
    have howned : owned.get? (s.1, id) = none := by
      by_contra hsome
      obtain ⟨item, hitem⟩ := ne_none_iff_exists'.1 hsome
      rw [(h.get?_owned.1 hitem).1] at hget
      cases hget
    have hfree : ¬ all.has (s.1, id) = true := by
      rw [has_iff, hget]
      exact Bool.false_ne_true
    constructor
    · intro _
      rw [over_unowned hno, howned, if_neg hfree]
      show SameValue ((none : Option V).or _) _
      rw [none_or]
      cases (sectionOf c resolved s.1).get? id with
      | none => exact .inl ⟨rfl, rfl⟩
      | some value => exact .inr ⟨value, value, rfl, rfl, .inl rfl⟩
    rw [h.inactive_iff hsection]
    rintro ⟨item, hitem, -⟩
    rw [hget] at hitem
    cases hitem
  | some item =>
    have htaken : all.has (s.1, id) = true := by
      rw [has_iff, hget]
      rfl
    cases hon : enabled item.owner with
    | false =>
      have hinactive : OwnedByInactive c enabled s.1 id :=
        (h.inactive_iff hsection).2 ⟨item, hget, hon⟩
      refine ⟨fun hnot => absurd hinactive hnot, fun _ => ?_⟩
      have hoff : ∀ other, all.get? (s.1, id) = some other → enabled other.owner = false := by
        intro other hother
        obtain rfl := some.inj (hget.symm.trans hother)
        exact hon
      have howned : owned.get? (s.1, id) = none := by
        by_contra hsome
        obtain ⟨other, hother⟩ := ne_none_iff_exists'.1 hsome
        obtain ⟨hall, hactive⟩ := h.get?_owned.1 hother
        rw [hoff other hall] at hactive
        cases hactive
      rw [over_unowned hoff, howned, if_pos htaken]
      rfl
    | true =>
      obtain ⟨hown, hallowed⟩ := h.own hget hon
      constructor
      · intro _
        have hvalue : (sanitize c all (sanitize c all saved.2.raw).raw).value item.owner s.1 id
            = wanted (sectionOf c resolved s.1) id item := by
          rw [hsaved.overrides_value (mem_names hs), hown, Option.elim_some]
          cases hwanted : wanted (sectionOf c resolved s.1) id item with
          | none => rfl
          | some =>
            rw [filter_some, hallowed, (wanted_fits hwell hs hwanted).1]
            rfl
        have hdeletes : (sanitize c all (sanitize c all saved.2.raw).raw).Deletes item.owner s.1 id
            ↔ (sectionOf c resolved s.1).get? id = none := by
          rw [sanitize_twice_deletes, and_iff_left hallowed, hsaved.deletes,
            if_pos ⟨mem_names hs, by rw [hown]; rfl⟩]
        rw [h.get?_owned.2 ⟨hget, hon⟩]
        cases hresolved : (sectionOf c resolved s.1).get? id with
        | none =>
          rw [hresolved] at hdeletes
          rw [over_owned hget hon hvalue hdeletes, if_pos rfl]
          exact .inl ⟨rfl, rfl⟩
        | some value =>
          rw [hresolved] at hdeletes
          rw [over_owned hget hon hvalue hdeletes, if_neg (Option.some_ne_none value), wanted,
            hresolved, filter_some]
          cases hsame : JsonValue.same value item.value with
          | true => exact .inr ⟨item.value, value, rfl, rfl, .inr hsame⟩
          | false => exact .inr ⟨value, value, rfl, rfl, .inl rfl⟩
      rw [h.inactive_iff hsection]
      rintro ⟨other, hother, hoff⟩
      obtain rfl := some.inj (hget.symm.trans hother)
      rw [hon] at hoff
      cases hoff

lemma Saved.inactive {files : Files V} (h : Sources c enabled files.base owned all)
    {names : List String}
    (hsaved : Saved c owned all resolved names (files.base, sanitize c all files.overrides) saved)
    {owner : String} (hoff : enabled owner = false) (name id : String) :
    (sanitize c all (sanitize c all saved.2.raw).raw).value owner name id
        = (sanitize c all files.overrides).value owner name id
      ∧ ((sanitize c all (sanitize c all saved.2.raw).raw).Deletes owner name id
        ↔ (sanitize c all files.overrides).Deletes owner name id) := by
  have hnone : ownedBy owned owner name id = none := by
    unfold ownedBy
    apply Option.filter_eq_none_iff.2
    intro _ hitem howner
    rw [← of_decide_eq_true howner, (h.get?_owned.1 hitem).2] at hoff
    cases hoff
  constructor
  · have hvalue : saved.2.value owner name id
        = (sanitize c all files.overrides).value owner name id := by
      rw [hsaved.value, hnone]
      exact ite_self _
    rw [sanitize_value, raw_value, sanitize_value, raw_value, hvalue, sanitize_value,
      Option.filter_filter, Option.filter_filter]
    simp only [Bool.and_self]
  have hdeletes : saved.2.Deletes owner name id
      ↔ (sanitize c all files.overrides).Deletes owner name id := by
    rw [hsaved.deletes, hnone, if_neg (fun hand => nomatch hand.2)]
  rw [sanitize_twice_deletes, hdeletes, sanitize_deletes, and_assoc, and_self_iff]

/-- **A save is lawful exactly** if it is refused, or the document has no id that a
layer of an inactive owner has. -/
theorem save_lawful_iff {files : Files V} {loaded : Document V}
    (hload : load c enabled files = .ok loaded) (resolved : Document V) :
    SaveLawful c enabled files resolved
      ↔ (WellFormed c resolved → ∀ s ∈ c.sections, ∀ id,
          OwnedByInactive c enabled s.1 id → (sectionOf c resolved s.1).get? id = none) := by
  obtain ⟨_, _, h⟩ := sources_of_load hload
  constructor
  · intro hlawful hwell s hs id hinactive
    obtain ⟨saved, hsaved, hsave⟩ := save_ok h hwell
    obtain ⟨after, L, hafter, hreads, hL⟩ := load_saved h hwell hsaved
    obtain ⟨⟨again, hagain, hsame⟩, -, -⟩ := hlawful _ _ hsave h.every
    obtain rfl := ok.inj (hafter.symm.trans hagain)
    obtain ⟨new, old, hnew, hold, hid⟩ := hsame s hs
    obtain ⟨values, hvalues, hget⟩ := hreads s hs
    obtain rfl := ok.inj (hnew.symm.trans hvalues)
    rw [entries_sectionOf hs hold]
    have hnone := (hget id).trans ((hL s hs id).2 hinactive)
    rcases hid id with ⟨-, hgone⟩ | ⟨v, w, hv, -, -⟩
    · exact hgone
    rw [hnone] at hv
    cases hv
  intro hclean after every hsave hevery
  obtain rfl := ok.inj (h.every.symm.trans hevery)
  have hwell := wellFormed_of_save hsave
  obtain ⟨saved, hsaved, hok⟩ := save_ok h hwell
  obtain rfl := ok.inj (hok.symm.trans hsave)
  refine ⟨?_, ?_, fun _ name id hoff => hsaved.inactive h hoff name id⟩
  · obtain ⟨again, L, hagain, hreads, hL⟩ := load_saved h hwell hsaved
    refine ⟨again, hagain, fun s hs => ?_⟩
    obtain ⟨new, hnew, hget⟩ := hreads s hs
    obtain ⟨old, hold⟩ := hwell s hs
    refine ⟨new, old, hnew, hold, fun id => ?_⟩
    rw [hget, ← entries_sectionOf hs hold]
    by_cases hinactive : OwnedByInactive c enabled s.1 id
    · exact .inl ⟨(hL s hs id).2 hinactive, hclean hwell s hs id hinactive⟩
    exact (hL s hs id).1 hinactive
  intro s hs
  obtain ⟨values, hread, hget⟩ := hsaved.base_entries hwell hs
  exact ⟨values, hread, fun id htaken => by rw [hget, if_pos htaken]⟩

/-! An agent of the base file, one of an active extension, one of an inactive one. -/

/-- A value with an id. -/
structure Agent where
  id : String
  prompt : String
  deriving DecidableEq

instance : JsonValue Agent where
  same a b := decide (a = b)
  idText a := some a.id
  hasId a := decide (a.id ≠ "")

def agentsConfig : LayeredJsonConfig Agent where
  baseFile := "agents_config.json"
  layers :=
    [{ owner := "on", path := "on.json", document := [("agents", .mapping [("x", ⟨"x", "1"⟩)])] },
     { owner := "off", path := "off.json", document := [("agents", .mapping [("y", ⟨"y", "2"⟩)])] }]
  dictSections := ["agents"]
  listSections := []
  nodup := by decide

def agentsFiles : Files Agent where
  base := [("agents", .mapping [("core", ⟨"core", "0"⟩)])]
  overrides := none

def loadedAgents : Document Agent :=
  [("agents", .mapping [("core", ⟨"core", "0"⟩), ("x", ⟨"x", "1"⟩)])]

def editedAgents : Document Agent :=
  [("agents", .mapping [("core", ⟨"core", "0"⟩), ("x", ⟨"x", "1"⟩), ("y", ⟨"y", "mine"⟩)])]

theorem save_lawful_iff_agents :
    load agentsConfig (fun owner => owner = "on") agentsFiles = .ok loadedAgents
      ∧ (SaveLawful agentsConfig (fun owner => owner = "on") agentsFiles editedAgents
        ↔ (WellFormed agentsConfig editedAgents → ∀ s ∈ agentsConfig.sections, ∀ id,
          OwnedByInactive agentsConfig (fun owner => owner = "on") s.1 id →
            (sectionOf agentsConfig editedAgents s.1).get? id = none)) :=
  have hload : load agentsConfig (fun owner => owner = "on") agentsFiles = .ok loadedAgents := rfl
  ⟨hload, save_lawful_iff hload editedAgents⟩

/-- **An item that is saved and gone**: no error, and the document does not have it. -/
theorem inactive_item_lost :
    load agentsConfig (fun owner => owner = "on") agentsFiles = .ok loadedAgents
      ∧ ¬ SaveLawful agentsConfig (fun owner => owner = "on") agentsFiles editedAgents := by
  have hload : load agentsConfig (fun owner => owner = "on")
      { agentsFiles with overrides := some [] } = .ok loadedAgents := rfl
  refine ⟨rfl, fun h => ?_⟩
  obtain ⟨⟨_, hloaded, hsections⟩, -⟩ := h { agentsFiles with overrides := some [] }
    [(("agents", "x"), ⟨"on", ⟨"x", "1"⟩⟩), (("agents", "y"), ⟨"off", ⟨"y", "2"⟩⟩)] rfl rfl
  obtain rfl := ok.inj (hload.symm.trans hloaded)
  obtain ⟨_, _, hnew, hold, hsame⟩ := hsections ("agents", .dict) (by decide)
  obtain rfl := ok.inj hnew
  obtain rfl := ok.inj hold
  rcases hsame "y" with ⟨-, hgone⟩ | ⟨v, w, hv, -, -⟩
  · cases hgone
  cases hv

end
end DeterminFlow.Plugins.Layered
