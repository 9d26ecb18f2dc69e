/-
  Plugins.ProvisioningRuns
  **HISTORIES OF AN INSTALLED WORKFLOW.**

  Versions of a plugin are installed one after the other, and the user edits the
  files in between.  The marker is written after the copies, so a run that stops
  leaves files that no marker remembers.
-/
import DeterminFlow.Plugins.Provisioning

namespace DeterminFlow.Plugins.Provisioning

open Library List
open Option (any_some some.inj)

/-! ## Histories -/

section
variable {δ : Type} [DecidableEq δ] (D : Sha256 δ) (name : String)

/-- A directory, and what was last installed at each path. -/
structure History (δ : Type) where
  dir : Directory δ
  last : Path → Option δ

/-- What happens to a directory. -/
inductive Event (δ : Type) where
  /-- The user writes or deletes a file. -/
  | edit (path : Path) (content : Option δ)
  /-- A run with a version of the plugin, which may be stopped. -/
  | run (owner : String) (v : Version δ) (stop : Option (Stop δ))
  /-- A run without the workflow. -/
  | removed (workflowOwners : List String)

def edited (files : Dict Path δ) (path : Path) (content : Option δ) : Dict Path δ :=
  match content with
  | none => unlink files path
  | some c => if blocked files path then files else files.set path c

def remember (v : Version δ) (files : Dict Path δ) (last : Path → Option δ) (path : Path) :
    Option δ :=
  match v.sourceFiles.get? path with
  | some source => if files.get? path = some source then some source else last path
  | none => if (files.get? path).isSome then last path else none

def History.step (s : History δ) : Event δ → History δ
  | .edit path content => { s with dir := { s.dir with files := edited s.dir.files path content } }
  | .run owner v stop =>
    let result := provision D name owner v stop s.dir
    { dir := result.1
      last := if result.2 then remember v result.1.files s.last else s.last }
  | .removed workflowOwners => { s with dir := deactivate workflowOwners s.dir }

def WroteNothing (before after : Dict Path δ) : Prop :=
  ∀ path content, after.get? path = some content → before.get? path = some content

/-- A version brings back no file that was left behind and that the user still has
with other content. -/
def BringsNoneBack (v : Version δ) (dir : Directory δ) : Prop :=
  ∀ path ∈ dir.marker.orphanedFiles.keys, ∀ source, v.sourceFiles.get? path = some source →
    dir.files.get? path = none ∨ dir.files.get? path = some source

/-- **The condition on a step**: a run is completed and its version brings back no
file that was left behind, or it stops and has written nothing. -/
def Safe (s : History δ) : Event δ → Prop
  | .run owner v stop =>
    ((provision D name owner v stop s.dir).2 = true ∧ BringsNoneBack v s.dir)
      ∨ ((provision D name owner v stop s.dir).2 = false
        ∧ WroteNothing s.dir.files (provision D name owner v stop s.dir).1.files)
  | _ => True

/-- The histories whose steps meet the condition. -/
inductive Reached : History δ → Prop
  | start {files : Dict Path δ} (h : Consistent files) :
      Reached { dir := { files := files }, last := fun _ => none }
  | step {s : History δ} {e : Event δ} (h : Reached s) (hsafe : Safe D name s e) :
      Reached (s.step D name e)

/-- **The law of a run**: files that the user changed are kept.  If the run is
completed, the others are those of the version, what the version no longer has is
gone, and a second run changes nothing. -/
structure RunLawful (owner : String) (v : Version δ) (stop : Option (Stop δ)) (s : History δ) :
    Prop where
  kept : ∀ path content, isGenerated path = false → s.dir.files.get? path = some content →
    s.last path ≠ some content →
    (provision D name owner v stop s.dir).1.files.get? path = some content
  current : (provision D name owner v stop s.dir).2 = true →
    ∀ path source, v.sourceFiles.get? path = some source →
      (provision D name owner v stop s.dir).1.files.get? path = some source
        ∨ ∃ content, s.dir.files.get? path = some content ∧ s.last path ≠ some content
  gone : (provision D name owner v stop s.dir).2 = true →
    ∀ path content, v.sourceFiles.get? path = none → s.last path = some content →
      (provision D name owner v stop s.dir).1.files.get? path ≠ some content
  again : (provision D name owner v stop s.dir).2 = true →
    provision D name owner v none (provision D name owner v stop s.dir).1
      = ((provision D name owner v stop s.dir).1, true)

end

/-! ## What the marker remembers -/

section
variable {δ : Type} {D : Sha256 δ} {name owner : String} {v : Version δ}

def memory (D : Sha256 δ) (last : Path → Option δ) (path : Path) : String :=
  ((last path).map D.hash).getD ""

/-- **The invariant**: the marker remembers what was last installed, at the paths
it lists and at no other. -/
structure Remembers (D : Sha256 δ) (s : History δ) : Prop where
  consistent : Consistent s.dir.files
  sensible : Sensible s.dir.marker
  files : ∀ path hash, s.dir.marker.files.get? path = some hash → hash = memory D s.last path
  orphaned : ∀ path hash, s.dir.marker.orphanedFiles.get? path = some hash →
    hash = memory D s.last path
  other : ∀ path, s.dir.marker.files.get? path = none →
    s.dir.marker.orphanedFiles.get? path = none → s.last path = none

variable {content source : δ} {path : Path} {q p : Progress δ} {job : Job δ} {todo : List (Job δ)}

lemma memory_eq_iff {last : Path → Option δ} :
    memory D last path = D.hash content ↔ last path = some content := by
  unfold memory
  cases last path with
  | none =>
    constructor
    · exact fun h => absurd h.symm (D.nonempty content)
    exact nofun
  | some =>
    constructor
    · exact fun h => congrArg some (D.injective h)
    exact fun h => congrArg D.hash (some.inj h)

def Recalled (D : Sha256 δ) (last : Path → Option δ) (path : Path) (previous : String) : Prop :=
  previous = "" ∨ previous = memory D last path

lemma shouldInstall_some {previous : String} :
    shouldInstall D (some content) source previous = true
      ↔ content = source ∨ (previous ≠ "" ∧ D.hash content = previous) := by
  simp only [shouldInstall, Bool.or_eq_true, Bool.and_eq_true, decide_eq_true_eq]
  exact or_congr_left ⟨fun h => D.injective h, fun h => congrArg D.hash h⟩

lemma eq_of_shouldInstall {last : Path → Option δ} {previous : String}
    (hprevious : Recalled D last path previous) (hother : last path ≠ some content)
    (h : shouldInstall D (some content) source previous = true) : content = source := by
  rcases shouldInstall_some.1 h with heq | ⟨hne, hhash⟩
  · exact heq
  rcases hprevious with hempty | hmemory
  · exact absurd hempty hne
  exact absurd (memory_eq_iff.1 (hmemory ▸ hhash.symm)) hother

lemma synced_own {last : Path → Option δ} {current : Option δ}
    (hown : ∀ content, current = some content → last path = some content) :
    (synced D current source (memory D last path)).1 = some source := by
  unfold synced
  cases current with
  | none => rfl
  | some content =>
    have hlast : memory D last path = D.hash content := memory_eq_iff.2 (hown content rfl)
    have hne : memory D last path ≠ "" := hlast ▸ D.nonempty content
    rw [if_pos (shouldInstall_some.2 (.inr ⟨hne, hlast.symm⟩))]

lemma keeps_iff {last : Path → Option δ} :
    keeps D (some content) (memory D last path) = true ↔ last path ≠ some content := by
  have hiff : last path ≠ some content ↔ memory D last path ≠ D.hash content :=
    not_congr memory_eq_iff.symm
  rw [hiff, keeps, any_some]
  simp only [Bool.not_eq_true', Bool.and_eq_false_iff, decide_eq_false_iff_not, not_not, ne_eq]
  constructor
  · rintro (hempty | hne) heq
    · exact D.nonempty content (heq ▸ hempty)
    exact hne heq.symm
  exact fun h => .inr (Ne.symm h)

/-! A run that is stopped anywhere. -/

def Job.Honest (D : Sha256 δ) (last : Path → Option δ) : Job δ → Prop
  | .sync path _ previous => Recalled D last path previous
  | .stale path installedHash => Recalled D last path installedHash
  | .sweep => True

lemma Job.run_kept {last : Path → Option δ} (hjob : job.Honest D last)
    (h : job.run D name p = some q) (hgenerated : isGenerated path = false)
    (hother : last path ≠ some content) (hget : p.files.get? path = some content) :
    q.files.get? path = some content := by
  cases job with
  | sync place source previous =>
    rw [(run_sync h).1 path]
    by_cases heq : path = place
    · subst heq
      rw [if_pos rfl, hget, synced]
      split
      · next hinstall => rw [eq_of_shouldInstall hjob hother hinstall]
      rfl
    rw [if_neg heq, hget]
  | stale place installedHash =>
    unfold Job.run at h
    simp only at h
    split at h
    · exact some.inj h ▸ hget
    split at h
    · split at h
      · cases h
      exact some.inj h ▸ hget
    next found hfound =>
    by_cases heq : path = place
    · subst heq
      obtain rfl := some.inj (hget.symm.trans hfound)
      have hforeign : ¬ (installedHash ≠ "" ∧ D.hash content = installedHash) := by
        rintro ⟨hne, hhash⟩
        rcases hjob with hempty | hmemory
        · exact hne hempty
        exact hother (memory_eq_iff.1 (hmemory ▸ hhash.symm))
      rw [hgenerated, if_neg Bool.false_ne_true, if_neg hforeign] at h
      exact some.inj h ▸ hget
    have hunlink : (unlink p.files place).get? path = some content := by
      rw [get?_unlink, if_neg heq, hget]
    split at h
    · exact some.inj h ▸ hunlink
    split at h
    · exact some.inj h ▸ hunlink
    exact some.inj h ▸ hget
  | sweep =>
    obtain rfl := some.inj h
    show Dict.get? (p.files.filter (fun e => !isGenerated e.1)) path = some content
    rw [Dict.get?_filter_keys p.files (fun key => !isGenerated key), hgenerated]
    exact hget

lemma runJobs_kept {last : Path → Option δ} (hjobs : ∀ job ∈ todo, job.Honest D last)
    (hgenerated : isGenerated path = false) (hother : last path ≠ some content)
    (hget : p.files.get? path = some content) :
    (runJobs D name todo p).1.files.get? path = some content := by
  induction todo generalizing p with
  | nil => exact hget
  | cons job rest ih =>
    rw [runJobs]
    cases hrun : job.run D name p with
    | none => exact hget
    | some =>
      exact ih (fun other hmem => hjobs other (mem_cons_of_mem _ hmem))
        (job.run_kept (hjobs job mem_cons_self) hrun hgenerated hother hget)

lemma Job.run_consistent (h : job.run D name p = some q) (hc : Consistent p.files) :
    Consistent q.files := by
  cases job with
  | sync => exact (run_sync h).2.2.2 hc
  | stale =>
    unfold Job.run at h
    simp only at h
    repeat' split at h
    all_goals cases h
    exacts [hc, hc, hc.filter _, hc.filter _, hc]
  | sweep => exact some.inj h ▸ hc.filter _

lemma runJobs_consistent (hc : Consistent p.files) :
    Consistent (runJobs D name todo p).1.files := by
  induction todo generalizing p with
  | nil => exact hc
  | cons job rest ih =>
    rw [runJobs]
    cases hrun : job.run D name p with
    | none => exact hc
    | some => exact ih (job.run_consistent hrun hc)

lemma tear_consistent {files : Dict Path δ} (hc : Consistent files) (next : Option (Job δ))
    (torn : Option δ) : Consistent (tear D files next torn) := by
  unfold tear
  split
  · split
    · exact hc
    next hfree =>
    split
    · exact hc.set (Bool.not_eq_true _ ▸ hfree) _
    exact hc
  exact hc

lemma provision_consistent {stop : Option (Stop δ)} {dir : Directory δ}
    (hc : Consistent dir.files) : Consistent (provision D name owner v stop dir).1.files := by
  unfold provision
  split
  · exact hc
  split
  · exact tear_consistent (runJobs_consistent hc) _ _
  simp only
  split
  all_goals exact runJobs_consistent hc

end

/-! ## Every run is lawful -/

section
variable {δ : Type} {D : Sha256 δ} {name owner : String} {v : Version δ} {s : History δ}

lemma Remembers.recalled (h : Remembers D s) (path : Path) :
    Recalled D s.last path ((s.dir.marker.files.get? path).getD "") := by
  cases hget : s.dir.marker.files.get? path with
  | none => exact .inl rfl
  | some hash => exact .inr (h.files path hash hget)

variable {hash : String} {path : Path} {dir : Directory δ} {content source : δ}
  {stop : Option (Stop δ)}

lemma Remembers.stale (h : Remembers D s)
    (hget : (staleFiles s.dir.marker v).get? path = some hash) :
    v.sourceFiles.get? path = none ∧ hash = memory D s.last path := by
  rw [h.sensible.get?_stale] at hget
  split at hget
  · cases hget
  next hnone =>
  refine ⟨Option.not_isSome_iff_eq_none.1 hnone, ?_⟩
  cases hfile : s.dir.marker.files.get? path with
  | some other =>
    rw [hfile, Option.some_or] at hget
    exact some.inj hget ▸ h.files path other hfile
  | none =>
    rw [hfile, Option.none_or] at hget
    exact h.orphaned path hash hget

lemma Remembers.last_eq_none (h : Remembers D s) (hversion : v.sourceFiles.get? path = none)
    (hget : (staleFiles s.dir.marker v).get? path = none) : s.last path = none := by
  rw [h.sensible.get?_stale, hversion, if_neg (by simp), Option.or_eq_none_iff] at hget
  exact h.other path hget.1 hget.2

lemma Remembers.honest (h : Remembers D s) (v : Version δ) :
    ∀ job ∈ jobs s.dir.marker v, job.Honest D s.last := by
  intro job hjob
  rw [Provisioning.jobs, mem_append, mem_append] at hjob
  rcases hjob with hsync | hstale | hsweep
  · obtain ⟨f, -, rfl⟩ := mem_map.1 hsync
    rw [h.sensible.previous]
    exact h.recalled f.1
  · obtain ⟨_, he, rfl⟩ := mem_map.1 hstale
    exact .inr (h.stale (Dict.get?_of_mem (h.sensible.stale v).1 he)).2
  rw [mem_singleton.1 hsweep]
  trivial

lemma provision_none_files (hconflict : conflict name owner dir = none) :
    (provision D name owner v none dir).1.files
      = (runJobs D name (jobs dir.marker v) { files := dir.files }).1.files := by
  unfold provision
  rw [hconflict]
  simp only
  split
  all_goals rfl

lemma exists_tear {files : Dict Path δ} (hget : files.get? path = some content)
    (next : Option (Job δ)) (torn : Option δ) :
    ∃ c, (tear D files next torn).get? path = some c := by
  unfold tear
  split
  · split
    · exact ⟨content, hget⟩
    split
    · rw [Dict.get?_set]
      split
      · exact ⟨_, rfl⟩
      exact ⟨content, hget⟩
    exact ⟨content, hget⟩
  exact ⟨content, hget⟩

lemma Remembers.kept (h : Remembers D s)
    (hwrote : stop ≠ none → WroteNothing s.dir.files (provision D name owner v stop s.dir).1.files)
    (hgenerated : isGenerated path = false) (hget : s.dir.files.get? path = some content)
    (hother : s.last path ≠ some content) :
    (provision D name owner v stop s.dir).1.files.get? path = some content := by
  cases hconflict : conflict name owner s.dir with
  | some =>
    unfold provision
    rw [hconflict]
    exact hget
  | none =>
    cases stop with
    | none =>
      rw [provision_none_files hconflict]
      exact runJobs_kept (h.honest v) hgenerated hother hget
    | some stop =>
      have hwrote := hwrote (Option.some_ne_none stop)
      unfold provision at hwrote ⊢
      rw [hconflict] at hwrote ⊢
      simp only at hwrote ⊢
      have hfirst : ∀ job ∈ (jobs s.dir.marker v).take stop.steps, job.Honest D s.last :=
        fun job hmem => h.honest v job (mem_of_mem_take hmem)
      -- what a copy that was begun leaves was there before, so it is the user's content
      have hsofar : (runJobs D name ((jobs s.dir.marker v).take stop.steps)
          { files := s.dir.files }).1.files.get? path = some content :=
        runJobs_kept hfirst hgenerated hother hget
      obtain ⟨c, hc⟩ := exists_tear (D := D) hsofar (jobs s.dir.marker v)[stop.steps]? stop.torn
      rw [hc, ← hwrote path c hc, hget]

lemma provision_stopped (h : (provision D name owner v stop dir).2 = false) :
    (provision D name owner v stop dir).1.marker = dir.marker := by
  unfold provision at h ⊢
  cases hconflict : conflict name owner dir with
  | some => rfl
  | none =>
    rw [hconflict] at h
    cases stop with
    | some => rfl
    | none =>
      simp only at h ⊢
      split
      · next hdone =>
        rw [if_pos hdone] at h
        cases h
      rfl

lemma stop_eq_none (h : (provision D name owner v stop dir).2 = true) : stop = none := by
  unfold provision at h
  split at h
  · cases h
  split at h
  · cases h
  rfl

/-! A completed run. -/

variable {after : Directory δ} {p q : Progress δ}

lemma Provisioned.files_version (hp : Provisioned D owner v s.dir after p q)
    (hm : Sensible s.dir.marker) (hversion : v.sourceFiles.get? path = some source) :
    after.files.get? path
      = (Provisioning.synced D (s.dir.files.get? path) source
        ((s.dir.marker.files.get? path).getD "")).1 := by
  have hstale : (staleFiles s.dir.marker v).get? path = none := by
    rw [hm.get?_stale, hversion]
    rfl
  rw [hp.after, Dict.get?_filter_keys q.files (fun key => !isGenerated key),
    (v.proper path (mem_keys_of_get? hversion)).2, hp.cleaned.files, hstale]
  show p.files.get? path = _
  rw [hp.synced.files, hversion]
  rfl

lemma Provisioned.files_other (hp : Provisioned D owner v s.dir after p q)
    (hversion : v.sourceFiles.get? path = none) (hgenerated : isGenerated path = false) :
    after.files.get? path
      = ((staleFiles s.dir.marker v).get? path).elim (s.dir.files.get? path)
        (fun h => if keeps D (s.dir.files.get? path) h then s.dir.files.get? path else none) := by
  have hsynced : p.files.get? path = s.dir.files.get? path := by
    rw [hp.synced.files, hversion]
    rfl
  rw [hp.after, Dict.get?_filter_keys q.files (fun key => !isGenerated key), hgenerated,
    hp.cleaned.files, hsynced]
  rfl

lemma Remembers.synced_eq (h : Remembers D s) (hnew : BringsNoneBack v s.dir)
    (hversion : v.sourceFiles.get? path = some source) :
    synced D (s.dir.files.get? path) source ((s.dir.marker.files.get? path).getD "")
      = synced D (s.dir.files.get? path) source (memory D s.last path) := by
  cases hfile : s.dir.marker.files.get? path with
  | some hash => rw [h.files path hash hfile, Option.getD_some]
  | none =>
    cases horphan : s.dir.marker.orphanedFiles.get? path with
    | none =>
      rw [memory, h.other path hfile horphan]
      rfl
    | some =>
      -- the hash that was kept for the file is not looked at
      have hthere : ∀ previous, shouldInstall D (s.dir.files.get? path) source previous = true := by
        intro previous
        rcases hnew path (mem_keys_of_get? horphan) source hversion with hget | hget
        · rw [hget]
          rfl
        rw [hget]
        exact shouldInstall_some.2 (.inl rfl)
      unfold synced
      rw [if_pos (hthere _), if_pos (hthere _)]

lemma Provisioned.current (hp : Provisioned D owner v s.dir after p q) (h : Remembers D s)
    (hnew : BringsNoneBack v s.dir) (hversion : v.sourceFiles.get? path = some source) :
    after.files.get? path = some source
      ∨ ∃ content, s.dir.files.get? path = some content ∧ s.last path ≠ some content := by
  rw [hp.files_version h.sensible hversion, h.synced_eq hnew hversion]
  by_cases hown : ∀ content, s.dir.files.get? path = some content → s.last path = some content
  · exact .inl (synced_own hown)
  right
  simpa only [not_forall, exists_prop] using hown

lemma Provisioned.gone (hp : Provisioned D owner v s.dir after p q) (h : Remembers D s)
    (hversion : v.sourceFiles.get? path = none) (hlast : s.last path = some content) :
    after.files.get? path ≠ some content := by
  cases hgenerated : isGenerated path with
  | true =>
    rw [hp.after, Dict.get?_filter_keys q.files (fun key => !isGenerated key), hgenerated]
    intro heq
    cases heq
  | false =>
    rw [hp.files_other hversion hgenerated]
    cases hstale : (staleFiles s.dir.marker v).get? path with
    | none =>
      rw [h.last_eq_none hversion hstale] at hlast
      cases hlast
    | some hash =>
      rw [(h.stale hstale).2]
      show (if _ then _ else _) ≠ _
      split
      · next hkeeps =>
        intro hget
        rw [hget] at hkeeps
        exact keeps_iff.1 hkeeps hlast
      intro heq
      cases heq

lemma Provisioned.installed (hp : Provisioned D owner v s.dir after p q) :
    p.installed = v.sourceFiles.mapValues (fun path c => (Provisioning.synced D
      (s.dir.files.get? path) c ((s.dir.marker.files.get? path).getD "")).2) :=
  hp.synced.installed

lemma Provisioned.orphaned (hp : Provisioned D owner v s.dir after p q) :
    q.orphaned = (staleFiles s.dir.marker v).filter (fun e => keeps D (p.files.get? e.1) e.2) := by
  rw [hp.cleaned.orphaned, hp.synced.orphaned]
  rfl

lemma Provisioned.left (hp : Provisioned D owner v s.dir after p q) (hm : Sensible s.dir.marker) :
    q.orphaned.get? path = some hash
      ↔ (staleFiles s.dir.marker v).get? path = some hash
        ∧ keeps D (s.dir.files.get? path) hash = true := by
  have hsame : ∀ other, v.sourceFiles.get? other = none →
      p.files.get? other = s.dir.files.get? other := by
    intro other hversion
    rw [hp.synced.files, hversion]
    rfl
  have hversion : ∀ {other h}, (staleFiles s.dir.marker v).get? other = some h →
      v.sourceFiles.get? other = none := by
    intro other h hstale
    rw [hm.get?_stale] at hstale
    split at hstale
    · cases hstale
    · next hnone => exact Option.not_isSome_iff_eq_none.1 hnone
  have hsub : (staleFiles s.dir.marker v).filter (fun e => keeps D (p.files.get? e.1) e.2)
      |>.Sublist (staleFiles s.dir.marker v) := filter_sublist
  have hnodup : (Dict.keys q.orphaned).Nodup := by
    rw [hp.orphaned]
    exact (hm.stale v).1.sublist (hsub.map _)
  constructor
  · intro hget
    have hmem := Dict.mem_of_get? hget
    rw [hp.orphaned, mem_filter] at hmem
    have hstale := Dict.get?_of_mem (hm.stale v).1 hmem.1
    exact ⟨hstale, hsame path (hversion hstale) ▸ hmem.2⟩
  rintro ⟨hstale, hkeeps⟩
  apply Dict.get?_of_mem hnodup
  rw [hp.orphaned]
  exact mem_filter.2 ⟨Dict.mem_of_get? hstale, (hsame path (hversion hstale)).symm ▸ hkeeps⟩

lemma Provisioned.sensible (hp : Provisioned D owner v s.dir after p q)
    (hm : Sensible s.dir.marker) : Sensible after.marker := by
  have hkeys : p.installed.keys = v.sourceFiles.keys := by
    rw [hp.installed, Dict.mapValues, Dict.keys, Dict.keys, map_map]
    rfl
  have hsub : q.orphaned.keys.Sublist (staleFiles s.dir.marker v).keys := by
    rw [hp.orphaned]
    exact filter_sublist.map _
  rw [hp.after]
  constructor
  · rfl
  · show p.installed.keys.Nodup
    exact hkeys ▸ v.nodup_sourceFiles
  · exact (hm.stale v).1.sublist hsub
  rintro path (hinstalled | horphaned)
  · exact v.proper path (hkeys ▸ hinstalled)
  exact (hm.stale v).2 path (hsub.subset horphaned)

lemma Provisioned.consistent (hp : Provisioned D owner v s.dir after p q)
    (hc : Consistent s.dir.files) : Consistent after.files := by
  rw [hp.after]
  exact (hp.cleaned.consistent (hp.synced.consistent hc)).filter _

variable [DecidableEq δ]

lemma remember_version {last : Path → Option δ} {files : Dict Path δ}
    (hversion : v.sourceFiles.get? path = some source) : remember v files last path
      = if files.get? path = some source then some source else last path := by
  unfold remember
  rw [hversion]

lemma remember_other {last : Path → Option δ} {files : Dict Path δ}
    (hversion : v.sourceFiles.get? path = none) :
    remember v files last path = if (files.get? path).isSome then last path else none := by
  unfold remember
  rw [hversion]

lemma synced_remember {last : Path → Option δ} {current : Option δ} {files : Dict Path δ}
    (hversion : v.sourceFiles.get? path = some source)
    (hfiles : files.get? path = (synced D current source (memory D last path)).1) :
    (synced D current source (memory D last path)).2 = memory D (remember v files last) path := by
  show _ = ((remember v files last path).map D.hash).getD ""
  rw [remember_version hversion, hfiles]
  unfold synced
  split
  · rw [if_pos rfl]
    rfl
  next hinstall =>
  have hne : current ≠ some source := by
    rintro rfl
    exact hinstall (shouldInstall_some.2 (.inl rfl))
  rw [if_neg hne]
  rfl

lemma Remembers.completed (h : Remembers D s) (hp : Provisioned D owner v s.dir after p q)
    (hnew : BringsNoneBack v s.dir) : Remembers D { dir :=after, last := remember v after.files s.last } := by
  have hmarker : after.marker.files = p.installed ∧ after.marker.orphanedFiles = q.orphaned := by
    rw [hp.after]
    exact ⟨rfl, rfl⟩
  -- a path that is left behind is outside the version and its file is still there
  have hleft : ∀ {path hash}, q.orphaned.get? path = some hash →
      (remember v after.files s.last) path = s.last path ∧ hash = memory D s.last path := by
    intro path hash hget
    obtain ⟨hstale, hkeeps⟩ := (hp.left h.sensible).1 hget
    obtain ⟨hversion, hhash⟩ := h.stale hstale
    have hgenerated := ((h.sensible.stale v).2 path (mem_keys_of_get? hstale)).2
    refine ⟨?_, hhash⟩
    rw [remember_other hversion, hp.files_other hversion hgenerated, hstale]
    show (if Option.isSome (if _ then _ else _) = true then _ else _) = _
    rw [if_pos hkeeps]
    cases hget : s.dir.files.get? path with
    | none =>
      rw [hget] at hkeeps
      cases hkeeps
    | some => rfl
  constructor
  · exact hp.consistent h.consistent
  · exact hp.sensible h.sensible
  · intro path hash hget
    simp only [hmarker.1, hp.installed, Dict.get?_mapValues] at hget
    obtain ⟨_, hversion, rfl⟩ := Option.map_eq_some_iff.1 hget
    rw [h.synced_eq hnew hversion]
    exact synced_remember hversion
      (h.synced_eq hnew hversion ▸ hp.files_version h.sensible hversion)
  · intro path hash hget
    simp only [hmarker.2] at hget
    show hash = memory D (remember v after.files s.last) path
    rw [memory, (hleft hget).1]
    exact (hleft hget).2
  intro path hfiles horphaned
  simp only [hmarker.1, hp.installed, Dict.get?_mapValues, Option.map_eq_none_iff] at hfiles
  simp only [hmarker.2] at horphaned
  show remember v after.files s.last path = none
  rw [remember_other hfiles]
  cases hgenerated : isGenerated path with
  | true =>
    have hnone : after.files.get? path = none := by
      rw [hp.after, Dict.get?_filter_keys q.files (fun key => !isGenerated key), hgenerated]
      rfl
    rw [hnone]
    rfl
  | false =>
    rw [hp.files_other hfiles hgenerated]
    cases hstale : (staleFiles s.dir.marker v).get? path with
    | none => rw [h.last_eq_none hfiles hstale, ite_self]
    | some hash =>
      have hnot : ¬ keeps D (s.dir.files.get? path) hash = true := by
        intro hkeeps
        rw [(hp.left h.sensible).2 ⟨hstale, hkeeps⟩] at horphaned
        cases horphaned
      show (if Option.isSome (if _ then _ else _) = true then _ else _) = _
      rw [if_neg hnot]
      rfl

lemma Remembers.step (h : Remembers D s) {e : Event δ} (hsafe : Safe D name s e) :
    Remembers D (s.step D name e) := by
  cases e with
  | edit path content =>
    refine ⟨?_, h.sensible, h.files, h.orphaned, h.other⟩
    show Consistent (edited s.dir.files path content)
    unfold edited
    split
    · exact h.consistent.filter _
    split
    · exact h.consistent
    · next hfree => exact h.consistent.set (Bool.not_eq_true _ ▸ hfree) _
  | run owner v stop =>
    unfold History.step
    rcases hsafe with ⟨hdone, hnew⟩ | ⟨hstopped, -⟩
    · simp only [hdone, if_true]
      obtain rfl := stop_eq_none hdone
      obtain ⟨_, _, hp⟩ := provisioned h.sensible (Prod.ext rfl hdone)
      exact h.completed hp hnew
    simp only [hstopped, Bool.false_eq_true, if_false]
    have hmarker := provision_stopped hstopped
    have hconsistent : Consistent (provision D name owner v stop s.dir).1.files :=
      provision_consistent h.consistent
    exact ⟨hconsistent, hmarker ▸ h.sensible, hmarker ▸ h.files, hmarker ▸ h.orphaned,
      hmarker ▸ h.other⟩
  | removed =>
    unfold History.step deactivate
    simp only
    split
    · exact ⟨h.consistent, ⟨h.sensible.legacy, h.sensible.files, h.sensible.orphaned,
        h.sensible.proper⟩, h.files, h.orphaned, h.other⟩
    exact h

lemma Reached.remembers (h : Reached D name s) : Remembers D s := by
  induction h with
  | start hc =>
    refine ⟨hc, ⟨rfl, nodup_nil, nodup_nil, ?_⟩, ?_, ?_, ?_⟩
    · rintro path (hmem | hmem)
      all_goals cases hmem
    · exact nofun
    · exact nofun
    exact fun path _ _ => rfl
  | step _ hsafe ih => exact ih.step hsafe

end

/-! ## A second run -/

section
variable {δ : Type} {D : Sha256 δ} {name owner : String} {v : Version δ} {s : History δ}

lemma run_sync_again {path : Path} {source : δ} {previous : String} {current : Option δ}
    {p : Progress δ} (hfree : blocked p.files path = false)
    (hfile : p.files.get? path = (synced D current source previous).1) :
    (Job.sync path source (synced D current source previous).2).run D name p
      = some { p with installed := p.installed.set path (synced D current source previous).2 } := by
  unfold Job.run
  simp only
  rw [if_neg (by rw [hfree]; exact Bool.false_ne_true)]
  unfold synced at hfile ⊢
  by_cases hinstall : shouldInstall D current source previous = true
  · rw [if_pos hinstall] at hfile ⊢
    have hagain : shouldInstall D (some source) source (D.hash source) = true :=
      shouldInstall_some.2 (.inl rfl)
    rw [hfile, if_pos hagain, Dict.set_self hfile]
  rw [if_neg hinstall] at hfile ⊢
  rw [hfile, if_neg hinstall]

lemma runJobs_sync_again {fs : Dict Path δ} {current : Path → Option δ} {prev : Path → String}
    (hnodup : fs.keys.Nodup) {p : Progress δ} (hnew : ∀ path ∈ fs.keys, path ∉ p.installed.keys)
    (hfree : ∀ path ∈ fs.keys, blocked p.files path = false)
    (hfile : ∀ f ∈ fs, p.files.get? f.1 = (synced D (current f.1) f.2 (prev f.1)).1) :
    runJobs D name (fs.map (fun f => .sync f.1 f.2 (synced D (current f.1) f.2 (prev f.1)).2)) p
      = ({ p with installed := p.installed
            ++ fs.map (fun f => (f.1, (synced D (current f.1) f.2 (prev f.1)).2)) }, true) := by
  induction fs generalizing p with
  | nil => rw [map_nil, map_nil, append_nil, runJobs]
  | cons f rest ih =>
    obtain ⟨hfirst, hrest⟩ := nodup_cons.1 hnodup
    have hf : f.1 ∉ p.installed.keys := hnew f.1 mem_cons_self
    rw [map_cons, runJobs, run_sync_again (hfree f.1 mem_cons_self) (hfile f mem_cons_self)]
    simp only
    rw [Dict.set_of_notMem hf, ih hrest, map_cons, append_assoc]
    · rfl
    · intro path hpath hmem
      rw [Dict.keys, map_append, mem_append] at hmem
      rcases hmem with hmem | hmem
      · exact hnew path (mem_cons_of_mem _ hpath) hmem
      exact hfirst (mem_singleton.1 hmem ▸ hpath)
    · exact fun path hpath => hfree path (mem_cons_of_mem _ hpath)
    exact fun g hg => hfile g (mem_cons_of_mem _ hg)

lemma runJobs_stale_again {st : Dict Path String} (hnodup : st.keys.Nodup)
    (hproper : ∀ path ∈ st.keys, Proper path) {p : Progress δ}
    (hnew : ∀ path ∈ st.keys, path ∉ p.orphaned.keys)
    (hkeeps : ∀ e ∈ st, keeps D (p.files.get? e.1) e.2 = true) :
    ∃ warnings, runJobs D name (st.map (fun e => .stale e.1 e.2)) p
      = ({ p with orphaned := p.orphaned ++ st, warnings := warnings }, true) := by
  induction st generalizing p with
  | nil => exact ⟨p.warnings, by rw [map_nil, append_nil, runJobs]⟩
  | cons e rest ih =>
    obtain ⟨hfirst, hrest⟩ := nodup_cons.1 hnodup
    have he : e.1 ∉ p.orphaned.keys := hnew e.1 mem_cons_self
    have hpath := hproper e.1 mem_cons_self
    have hkept := hkeeps e mem_cons_self
    cases hget : p.files.get? e.1 with
    | none =>
      rw [hget] at hkept
      cases hkept
    | some content =>
      have hforeign : ¬ (e.2 ≠ "" ∧ D.hash content = e.2) := by
        rw [hget] at hkept
        simp only [keeps, any_some, Bool.not_eq_true', Bool.and_eq_false_iff,
          decide_eq_false_iff_not] at hkept
        exact not_and_or.2 hkept
      have hmore : ∀ path ∈ Dict.keys rest, path ∉ Dict.keys (p.orphaned ++ [(e.1, e.2)]) := by
        intro path hmem hold
        rw [Dict.keys, map_append, mem_append] at hold
        rcases hold with hold | hold
        · exact hnew path (mem_cons_of_mem _ hmem) hold
        exact hfirst (mem_singleton.1 hold ▸ hmem)
      rw [map_cons, runJobs]
      unfold Job.run
      simp only [hpath.1, hpath.2, hget, Bool.false_eq_true, if_false, hforeign]
      rw [Dict.set_of_notMem he]
      generalize p.warnings ++ [_] = said
      obtain ⟨warnings, hrun⟩ := ih (p := { p with orphaned := p.orphaned ++ [(e.1, e.2)],
                                                    warnings := said }) hrest
        (fun path hmem => hproper path (mem_cons_of_mem _ hmem)) hmore
        (fun g hg => hkeeps g (mem_cons_of_mem _ hg))
      exact ⟨warnings, by rw [hrun, append_assoc]; rfl⟩

lemma conflict_self {dir : Directory δ} (howner : owner ≠ "") (hself : dir.marker.owner = owner) :
    conflict name owner dir = none := by
  unfold conflict
  rw [if_neg (fun h => h.2 hself), if_neg (fun h => howner (hself ▸ h.2))]

variable {after : Directory δ} {p q : Progress δ}

lemma Provisioned.jobs_again (hp : Provisioned D owner v s.dir after p q)
    (hm : Sensible s.dir.marker) : jobs after.marker v
      = v.sourceFiles.map (fun f => .sync f.1 f.2 (Provisioning.synced D (s.dir.files.get? f.1) f.2
          ((s.dir.marker.files.get? f.1).getD "")).2)
        ++ (q.orphaned.map (fun e => .stale e.1 e.2) ++ [.sweep]) := by
  have hmarker : after.marker.files = p.installed ∧ after.marker.orphanedFiles = q.orphaned := by
    rw [hp.after]
    exact ⟨rfl, rfl⟩
  have hsync : ∀ f ∈ v.sourceFiles, p.installed.get? f.1
      = some (Provisioning.synced D (s.dir.files.get? f.1) f.2
          ((s.dir.marker.files.get? f.1).getD "")).2 := by
    intro f hf
    rw [hp.installed, Dict.get?_mapValues, Dict.get?_of_mem v.nodup_sourceFiles hf]
    rfl
  have hnothing : p.installed.filter (fun e => !v.sourceFiles.has e.1) = [] := by
    apply filter_eq_nil_iff.2
    intro e he
    rw [hp.installed] at he
    obtain ⟨f, hf, rfl⟩ := mem_map.1 he
    rw [Bool.not_eq_true', Bool.not_eq_false, has_eq_isSome,
      Dict.get?_of_mem v.nodup_sourceFiles hf]
    rfl
  have hkept : q.orphaned.filter (fun e => !v.sourceFiles.has e.1) = q.orphaned := by
    apply filter_eq_self.2
    intro e he
    rw [hp.orphaned, mem_filter] at he
    have hstale := Dict.get?_of_mem (hm.stale v).1 he.1
    rw [hm.get?_stale] at hstale
    split at hstale
    · cases hstale
    · next hnone => rw [has_eq_isSome, Option.not_isSome_iff_eq_none.1 hnone]; rfl
  rw [jobs, staleFiles, (hp.sensible hm).previous, hmarker.1, hmarker.2, hnothing]
  show _ ++ ((q.orphaned.filter (fun e => !v.sourceFiles.has e.1)).map _ ++ _) = _
  rw [hkept]
  congr 1
  apply map_congr_left
  intro f hf
  rw [hsync f hf]
  rfl

lemma Provisioned.again (hp : Provisioned D owner v s.dir after p q) (h : Remembers D s)
    (howner : owner ≠ "") : provision D name owner v none after = (after, true) := by
  have hm := h.sensible
  have hfile : ∀ f ∈ v.sourceFiles, after.files.get? f.1 = (Provisioning.synced D
      (s.dir.files.get? f.1) f.2 ((s.dir.marker.files.get? f.1).getD "")).1 :=
    fun f hf => hp.files_version hm (Dict.get?_of_mem v.nodup_sourceFiles hf)
  have hthere : ∀ path ∈ v.sourceFiles.keys, path ∈ after.files.keys := by
    intro path hpath
    obtain ⟨f, hf, rfl⟩ := mem_map.1 hpath
    have hget := hfile f hf
    cases hcurrent : s.dir.files.get? f.1 with
    | none =>
      rw [hcurrent] at hget
      exact mem_keys_of_get? hget
    | some =>
      rw [hcurrent] at hget
      unfold Provisioning.synced at hget
      split at hget
      all_goals exact mem_keys_of_get? hget
  have hfree : ∀ path ∈ v.sourceFiles.keys, blocked after.files path = false := by
    intro path hpath
    have hc := hp.consistent h.consistent
    apply blocked_eq_false_iff.2
    intro other hother hne
    exact ⟨hc.apart other hother path (hthere path hpath) hne,
      hc.apart path (hthere path hpath) other hother (Ne.symm hne)⟩
  have hkeeps : ∀ e ∈ q.orphaned, keeps D (after.files.get? e.1) e.2 = true := by
    intro e he
    have hnodup := (hp.sensible hm).orphaned
    rw [hp.after] at hnodup
    obtain ⟨hstale, hkeeps⟩ := (hp.left hm).1 (Dict.get?_of_mem hnodup he)
    have hproper := (hm.stale v).2 e.1 (mem_keys_of_get? hstale)
    rw [hp.files_other (h.stale hstale).1 hproper.2, hstale]
    show keeps D (if _ then _ else _) _ = true
    rw [if_pos hkeeps, hkeeps]
  have hproper : ∀ path ∈ q.orphaned.keys, Proper path := by
    have hmarker := (hp.sensible hm).proper
    rw [hp.after] at hmarker
    exact fun path hpath => hmarker path (.inr hpath)
  have hnodup : q.orphaned.keys.Nodup := by
    have hmarker := (hp.sensible hm).orphaned
    rw [hp.after] at hmarker
    exact hmarker
  have hswept : after.files.filter (fun e => !isGenerated e.1) = after.files := by
    rw [hp.after, filter_filter]
    simp only [Bool.and_self]
  -- the jobs of the second run, part by part
  have hfirst := @runJobs_sync_again δ D name v.sourceFiles (fun path => s.dir.files.get? path)
    (fun path => (s.dir.marker.files.get? path).getD "") v.nodup_sourceFiles
    { files := after.files } (fun path _ hmem => absurd hmem not_mem_nil) hfree hfile
  obtain ⟨warnings, hsecond⟩ := @runJobs_stale_again δ D name q.orphaned hnodup hproper
    { files := after.files, installed := p.installed }
    (fun path _ hmem => absurd hmem not_mem_nil) hkeeps
  have hrun : runJobs D name (jobs after.marker v) { files := after.files }
      = ({ files := after.files, installed := p.installed, orphaned := q.orphaned,
           warnings := warnings }, true) := by
    rw [hp.jobs_again hm, runJobs_append, hfirst]
    simp only [if_true]
    rw [runJobs_append]
    have hinstalled : v.sourceFiles.map (fun f => (f.1, (Provisioning.synced D
        (s.dir.files.get? f.1) f.2 ((s.dir.marker.files.get? f.1).getD "")).2)) = p.installed :=
      hp.installed.symm
    rw [nil_append, hinstalled, hsecond]
    simp only [if_true, nil_append]
    show (({ files := after.files.filter (fun e => !isGenerated e.1), installed := p.installed,
             orphaned := q.orphaned, warnings := warnings } : Progress δ), true) = _
    rw [hswept]
  have hself : after.marker.owner = owner := by rw [hp.after]
  unfold provision
  rw [conflict_self howner hself]
  simp only
  rw [hrun]
  simp only [if_true]
  have hmarker : after.marker
      = { owner := owner, active := true, files := p.installed, orphanedFiles := q.orphaned } := by
    rw [hp.after]
  rw [← hmarker]

/-- **Runs are lawful** in every history whose steps meet the condition. -/
theorem provisioned_lawful [DecidableEq δ] (h : Reached D name s) {stop : Option (Stop δ)}
    (hsafe : Safe D name s (.run owner v stop)) (howner : owner ≠ "") :
    RunLawful D name owner v stop s := by
  have hs := h.remembers
  constructor
  · intro path content hgenerated hget hother
    refine hs.kept (fun hstop => ?_) hgenerated hget hother
    rcases hsafe with ⟨hdone, -⟩ | ⟨-, hwrote⟩
    · exact absurd (stop_eq_none hdone) hstop
    exact hwrote
  all_goals
    intro hdone
    obtain rfl := stop_eq_none hdone
    obtain ⟨_, _, hp⟩ := provisioned hs.sensible (Prod.ext rfl hdone)
  · intro path _ hversion
    rcases hsafe with ⟨-, hnew⟩ | ⟨hstopped, -⟩
    · exact hp.current hs hnew hversion
    rw [hdone] at hstopped
    cases hstopped
  · exact fun path content hversion hlast => hp.gone hs hversion hlast
  exact hp.again hs howner

/-! An update that the user edits, and one that is stopped. -/

def digest : Sha256 String where
  hash content := "#" ++ content
  injective a b h := String.append_right_inj _ |>.1 h
  nonempty content h := by
    have hlength := congrArg String.length h
    rw [String.length_append] at hlength
    exact absurd hlength (by simp)

/-- `script/main.py` -/
def mainPath : Path := ["script", "main.py"]

lemma mainPath_proper : isGenerated mainPath = false ∧ ".." ∉ mainPath := by decide

def release (definition script : String) : Version String where
  definition := definition
  scripts := [(mainPath, script)]
  nodup := List.nodup_cons.2 ⟨List.not_mem_nil, List.nodup_nil⟩
  inScript path h := by rw [List.mem_singleton.1 h]; rfl
  notGenerated path h := by rw [List.mem_singleton.1 h]; exact mainPath_proper.1
  noParent path h := by rw [List.mem_singleton.1 h]; exact mainPath_proper.2

def bare (definition : String) : Version String where
  definition := definition
  scripts := []
  nodup := List.nodup_nil
  inScript _ h := nomatch h
  notGenerated _ h := nomatch h
  noParent _ h := nomatch h

def fresh : History String := { dir := {}, last := fun _ => none }

def History.released (s : History String) (definition script : String)
    (stop : Option (Stop String)) : History String :=
  s.step digest "flow" (.run "plugin" (release definition script) stop)

theorem provisioned_lawful_edited : (provision digest "flow" "plugin" (release "b" "y") none
        ((fresh.released "a" "x" none).step digest "flow"
          (.edit mainPath (some "mine"))).dir).2 = true
      ∧ RunLawful digest "flow" "plugin" (release "b" "y") none
        ((fresh.released "a" "x" none).step digest "flow" (.edit mainPath (some "mine"))) :=
  have hstart : Reached digest "flow" fresh := .start ⟨nodup_nil, nofun⟩
  have hinstalled : Reached digest "flow" (fresh.released "a" "x" none) :=
    .step hstart (.inl ⟨by decide, nofun⟩)
  have hedited : Reached digest "flow" ((fresh.released "a" "x" none).step digest "flow"
      (.edit mainPath (some "mine"))) :=
    .step hinstalled (e := .edit mainPath (some "mine")) trivial
  ⟨by decide, provisioned_lawful hedited
    (.inl ⟨by decide, nofun⟩) (by decide)⟩

/-- **An update that is stopped before the marker is written sticks**: the user has
changed nothing, and the next version is not installed.  So does a script that the
user has restored after a version had brought it back. -/
theorem stopped_run_sticks : ((fresh.released "a" "x" none).released "b" "y" (some ⟨1, none⟩)
        |>.released "c" "z" none).dir.files
      = [(definitionPath, "b"), (mainPath, "z")]
    ∧ (provision digest "flow" "plugin" (release "c" "z") none
        ((fresh.released "a" "x" none).released "b" "y" (some ⟨1, none⟩)).dir).2 = true
    ∧ ((((fresh.released "a" "x" none).step digest "flow"
          (.edit mainPath (some "mine"))).step digest "flow"
          (.run "plugin" (bare "a") none)).released "a" "y" none |>.step digest "flow"
          (.edit mainPath (some "x")) |>.released "a" "z" none).dir.files
      = [(definitionPath, "a"), (mainPath, "x")] := by
  decide

end
end DeterminFlow.Plugins.Provisioning
