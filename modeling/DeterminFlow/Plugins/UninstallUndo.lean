/-
  Plugins.UninstallUndo
  **CANCELLING THE REMOVAL OF A PLUGIN.**

  A removal is a mark in the lock record, in the field that also holds the
  action that waits for the next start.  The mark overwrites what waits there,
  and cancelling it leaves the field empty.
-/
import DeterminFlow.Plugins.StoreRuns

namespace DeterminFlow.Plugins.Store

open Library PyText Runs List Option Except

section
variable {o : Outside}

/-! ## The lock after one mark -/

/-- The lock reads back the records, and they are in order. -/
structure Holds (o : Outside) (lock : Option Document) (written : Records) : Prop where
  readsBack : ∀ manifests, ∃ records,
    readLock o manifests lock = .ok records ∧ records.Perm written
  ok : RecordsOk o written

lemma RecordsOk.get?_perm {records records' : Records} (h : RecordsOk o records)
    (hperm : records'.Perm records) (pluginId : Text) :
    records'.get? pluginId = records.get? pluginId := by
  have hother := h.perm hperm
  cases hget : records.get? pluginId with
  | some =>
    exact Dict.get?_of_mem hother.nodup (hperm.mem_iff.2 (Dict.mem_of_get? hget))
  | none =>
    cases hget' : records'.get? pluginId with
    | none => rfl
    | some =>
      rw [Dict.get?_of_mem h.nodup (hperm.mem_iff.1 (Dict.mem_of_get? hget'))] at hget
      cases hget

/-- The lock after `_set_pending_action`: one record has another action. -/
structure Marked (o : Outside) (written : Records) (pluginId : Text) (action : Option Action)
    (lock : Option Document) (records : Records) : Prop where
  holds : Holds o lock records
  changed : ∃ old, written.get? pluginId = some old
    ∧ records.get? pluginId = some { old with pendingAction := action }
  others : ∀ other, other ≠ pluginId → records.get? other = written.get? other

variable {lock' lock : Option Document} {env : Env}

lemma marked_of_written {read : Records} {written : Records} {raw : Text} {action : Option Action}
    {op : Op} {records : Records} (hholds : Holds o lock written)
    (hread : readLock o env.manifests lock = .ok read) (hop : perform o env read op = (do
      let pluginId ← validatePluginId raw
      let record ← setPendingAction read pluginId action
      return some (read.set pluginId record))) (h : attempt o env lock op = .ok (lock', records)) :
    ∃ pluginId, validatePluginId raw = .ok pluginId
      ∧ Marked o written pluginId action lock' records := by
  obtain ⟨_, hread', hperm⟩ := hholds.readsBack env.manifests
  obtain rfl := ok.inj (hread.symm.trans hread')
  have hread := hholds.ok.perm hperm
  rw [attempt] at h
  split at h
  · cases h
  rw [hread'] at h
  simp only at h
  rw [hop] at h
  cases hid : validatePluginId raw with
  | error =>
    rw [hid] at h
    cases h
  | ok pluginId =>
    cases hrecord : setPendingAction read pluginId action with
    | error =>
      rw [hid] at h
      simp only [bind, Except.bind, hrecord] at h
      cases h
    | ok record =>
      rw [hid] at h
      simp only [bind, Except.bind, pure, Except.pure, hrecord] at h
      have hnew := setPendingAction_renewed hread hrecord
      have hok := hread.set (validatePluginId_again hid) hnew
      split at h
      · cases h
      next document hdocument =>
      split at h
      · obtain ⟨rfl, rfl⟩ := Prod.mk.inj (ok.inj h)
        rw [setPendingAction] at hrecord
        obtain ⟨old, hold, hrecord⟩ := Outcome.bind_eq_ok_iff.1 hrecord
        rw [requireRecord_ok] at hold
        obtain rfl := ok.inj hrecord
        refine ⟨pluginId, rfl, ⟨⟨fun manifests => ⟨_, readLock_document o manifests hok hdocument,
          perm_insertionSort _ _⟩, hok⟩, ⟨old, ?_, ?_⟩, fun _ hne => ?_⟩⟩
        · rw [← hholds.ok.get?_perm hperm, hold]
        · rw [Dict.get?_set, if_pos rfl]
        rw [Dict.get?_set_ne _ _ (Ne.symm hne), hholds.ok.get?_perm hperm]
      cases h

lemma attempt_mark {written : Records} {raw : Text} {records : Records}
    (hholds : Holds o lock written)
    (h : attempt o env lock (.markUninstall raw) = .ok (lock', records)) :
    ∃ pluginId, validatePluginId raw = .ok pluginId
      ∧ Marked o written pluginId (some .remove) lock' records := by
  obtain ⟨_, hread, -⟩ := hholds.readsBack env.manifests
  exact marked_of_written hholds hread rfl h

lemma attempt_cancel {written : Records} {raw : Text} {records : Records}
    (hholds : Holds o lock written)
    (h : attempt o env lock (.cancelUninstall raw) = .ok (lock', records)) :
    ∃ pluginId, validatePluginId raw = .ok pluginId ∧ Marked o written pluginId none lock' records := by
  obtain ⟨_, hread, -⟩ := hholds.readsBack env.manifests
  exact marked_of_written hholds hread rfl h

/-! ## A mark and its cancellation -/

/-- What the two operations leave of the lock record of a plugin. -/
structure Restored (before after : Records) (pluginId : Text) : Prop where
  record : ∃ old, before.get? pluginId = some old
    ∧ after.get? pluginId = some { old with pendingAction := none }
  others : ∀ other, other ≠ pluginId → after.get? other = before.get? other
  exactly : after.get? pluginId = before.get? pluginId
    ↔ ∀ old, before.get? pluginId = some old → old.pendingAction = none

end

def toolId : Text := ['t', 'o', 'o', 'l']

end DeterminFlow.Plugins.Store
