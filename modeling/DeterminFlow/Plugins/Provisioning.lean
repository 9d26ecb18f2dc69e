/-
  Plugins.Provisioning
  **THE WORKFLOW FILES OF A PLUGIN.**

  `provision_plugin_workflows` copies the files of a workflow into a directory
  where the user may edit them.  Which files are the user's is decided by hashes
  that a marker remembers; the marker is written after the copies.
-/
import DeterminFlow.Library.Dict

namespace DeterminFlow.Plugins.Provisioning

open Library List Option Dict

/-! ## Versions, directories, markers -/

abbrev Path : Type := List String

/-- `hashlib.sha256(..).hexdigest()`: no two contents have one digest. -/
structure Sha256 (δ : Type) where
  hash : δ → String
  injective : Function.Injective hash
  nonempty : ∀ content, hash content ≠ ""

/-- `"__pycache__" in parts or suffix in {".pyc", ".pyo"}`. -/
def isGenerated (path : Path) : Bool :=
  decide ("__pycache__" ∈ path) || path.getLast?.any (fun name =>
    decide (4 < name.length) && (['.', 'p', 'y', 'c'].isSuffixOf name.toList
      || ['.', 'p', 'y', 'o'].isSuffixOf name.toList))

/-- `definition.json` -/
def definitionPath : Path := ["definition.json"]

/-- The workflow directory of a plugin version: its definition and the files below
`script`, in order, without generated ones. -/
structure Version (δ : Type) where
  definition : δ
  scripts : Dict Path δ
  nodup : scripts.keys.Nodup
  inScript : ∀ path ∈ scripts.keys, path.head? = some "script"
  notGenerated : ∀ path ∈ scripts.keys, isGenerated path = false
  noParent : ∀ path ∈ scripts.keys, ".." ∉ path

def Version.sourceFiles {δ : Type} (v : Version δ) : Dict Path δ :=
  (definitionPath, v.definition) :: v.scripts

/-- `.extension.json`: the hashes that were installed, per file of the last version
and per file that was left behind; a marker that is missing is empty. -/
structure Marker where
  owner : String := ""
  active : Bool := false
  installedHash : String := ""
  files : Dict Path String := []
  orphanedFiles : Dict Path String := []
  deriving DecidableEq

/-- The directory of an installed workflow. -/
structure Directory (δ : Type) where
  files : Dict Path δ := []
  marker : Marker := {}
  deriving DecidableEq

section
variable {δ : Type} (D : Sha256 δ)

def blocked (files : Dict Path δ) (path : Path) : Bool :=
  files.any (fun entry => entry.1 != path && (entry.1.isPrefixOf path || path.isPrefixOf entry.1))

/-- A path leaves the directory (`candidate.resolve().relative_to(target_root)` fails). -/
def leavesRoot : Nat → Path → Bool
  | _, [] => false
  | depth, name :: rest =>
    if name = ".." then (if depth = 0 then true else leavesRoot (depth - 1) rest)
    else leavesRoot (depth + 1) rest

/-- Whether `_sync_owned_file` installs. -/
def shouldInstall (current : Option δ) (source : δ) (previous : String) : Bool :=
  match current with
  | none => true
  | some content =>
    decide (D.hash content = D.hash source)
      || (decide (previous ≠ "") && decide (D.hash content = previous))

/-- What a run has done so far. -/
structure Progress (δ : Type) where
  files : Dict Path δ
  installed : Dict Path String := []
  orphaned : Dict Path String := []
  warnings : List String := []

/-- The steps of a run. -/
inductive Job (δ : Type) where
  /-- `_sync_owned_file` -/
  | sync (path : Path) (source : δ) (previous : String)
  /-- A file that the version no longer has. -/
  | stale (path : Path) (installedHash : String)
  /-- Generated files are removed. -/
  | sweep

/-- `path.unlink()` -/
def unlink (files : Dict Path δ) (path : Path) : Dict Path δ := files.filter (·.1 ≠ path)

/-- One step; `none` when the system refuses it. -/
def Job.run (name : String) (p : Progress δ) : Job δ → Option (Progress δ)
  | .sync path source previous =>
    if blocked p.files path then none
    else if shouldInstall D (p.files.get? path) source previous then
      some { p with files := p.files.set path source
                    installed := p.installed.set path (D.hash source) }
    else some { p with installed := p.installed.set path previous }
  | .stale path installedHash =>
    if leavesRoot 0 path then some p
    else
      match p.files.get? path with
      | none => if p.files.any (fun e => path.isPrefixOf e.1) then none else some p
      | some content =>
        if isGenerated path then some { p with files := unlink p.files path }
        else if installedHash ≠ "" ∧ D.hash content = installedHash then
          some { p with files := unlink p.files path }
        else
          some { p with
            orphaned := p.orphaned.set path installedHash
            warnings := p.warnings ++ ["扩展 Workflow " ++ name ++ " 已移除文件 "
              ++ String.intercalate "/" path ++ "，检测到用户修改，已保留"] }
  | .sweep => some { p with files := p.files.filter (fun e => !isGenerated e.1) }

def previousFiles (m : Marker) : Dict Path String :=
  if m.installedHash ≠ "" then m.files.setDefault definitionPath m.installedHash else m.files

/-- `stale_files`, without the files of the version. -/
def staleFiles (m : Marker) (v : Version δ) : Dict Path String :=
  (m.orphanedFiles.update ((previousFiles m).filter (fun e => !v.sourceFiles.has e.1))).filter
    (fun e => !v.sourceFiles.has e.1)

def jobs (m : Marker) (v : Version δ) : List (Job δ) :=
  v.sourceFiles.map (fun f => .sync f.1 f.2 (((previousFiles m).get? f.1).getD ""))
    ++ ((staleFiles m v).map (fun e => .stale e.1 e.2) ++ [.sweep])

def runJobs (name : String) : List (Job δ) → Progress δ → Progress δ × Bool
  | [], p => (p, true)
  | job :: rest, p =>
    match job.run D name p with
    | none => (p, false)
    | some next => runJobs name rest next

def conflict (name owner : String) (dir : Directory δ) : Option String :=
  if dir.marker.owner ≠ "" ∧ dir.marker.owner ≠ owner then
    some ("扩展 Workflow 冲突: " ++ name ++ " (" ++ dir.marker.owner ++ " vs " ++ owner ++ ")")
  else if (dir.files.get? definitionPath).isSome ∧ dir.marker.owner = "" then
    some ("扩展 Workflow 与用户/Core Workflow 冲突: " ++ name)
  else none

/-- Where a run stops from outside: after how many steps, and what a copy that was
begun has left. -/
structure Stop (δ : Type) where
  steps : Nat
  torn : Option δ

def tear (files : Dict Path δ) (next : Option (Job δ)) (torn : Option δ) : Dict Path δ :=
  match next, torn with
  | some (.sync path source previous), some content =>
    if blocked files path then files
    else if shouldInstall D (files.get? path) source previous then files.set path content
    else files
  | _, _ => files

/-- **A run of `provision_plugin_workflows` on one workflow**: the directory it
leaves, and whether it was completed. -/
def provision (name owner : String) (v : Version δ) (stop : Option (Stop δ)) (dir : Directory δ) :
    Directory δ × Bool :=
  match conflict name owner dir with
  | some _ => (dir, false)
  | none =>
    match stop with
    | some stop =>
      let p := (runJobs D name ((jobs dir.marker v).take stop.steps) { files := dir.files }).1
      ({ dir with files := tear D p.files (jobs dir.marker v)[stop.steps]? stop.torn }, false)
    | none =>
      let result := runJobs D name (jobs dir.marker v) { files := dir.files }
      if result.2 then
        ({ files := result.1.files
           marker := { owner := owner, active := true, files := result.1.installed,
                       orphanedFiles := result.1.orphaned } }, true)
      else ({ dir with files := result.1.files }, false)

end

def deactivate {δ : Type} (workflowOwners : List String) (dir : Directory δ) : Directory δ :=
  if dir.marker.owner ∈ workflowOwners then
    { dir with marker := { dir.marker with active := false } }
  else dir

/-! ## What the steps do -/

section
variable {δ : Type} {D : Sha256 δ} {name : String}

/-- No file stands in the place of a directory of another. -/
structure Consistent (files : Dict Path δ) : Prop where
  nodup : files.keys.Nodup
  apart : ∀ path ∈ files.keys, ∀ other ∈ files.keys, path ≠ other → ¬ path <+: other

variable {path : Path} {κ ν : Type} {d : Dict κ ν} {q p : Progress δ}

lemma blocked_eq_false_iff {files : Dict Path δ} : blocked files path = false
      ↔ ∀ other ∈ files.keys, other ≠ path → ¬ other <+: path ∧ ¬ path <+: other := by
  constructor
  · intro h other hother hne
    obtain ⟨entry, hentry, rfl⟩ := mem_map.1 hother
    have hnone := any_eq_false.1 h entry hentry
    simp only [Bool.and_eq_true, bne_iff_ne, Bool.or_eq_true, isPrefixOf_iff_prefix, not_and,
      not_or] at hnone
    exact hnone hne
  intro h
  apply any_eq_false.2
  intro entry hentry
  simp only [Bool.and_eq_true, bne_iff_ne, Bool.or_eq_true, isPrefixOf_iff_prefix, not_and,
    not_or]
  exact h entry.1 (mem_map_of_mem hentry)

lemma Consistent.set {files : Dict Path δ} (h : Consistent files)
    (hfree : blocked files path = false) (content : δ) : Consistent (files.set path content) := by
  have hfree := blocked_eq_false_iff.1 hfree
  constructor
  · exact nodup_keys_set h.nodup path content
  intro p hp q hq hne
  rcases mem_keys_set.1 hp with rfl | hold
  · rcases mem_keys_set.1 hq with rfl | hother
    · exact absurd rfl hne
    exact (hfree q hother (Ne.symm hne)).2
  rcases mem_keys_set.1 hq with rfl | hother
  · exact (hfree p hold hne).1
  exact h.apart p hold q hother hne

lemma Consistent.filter {files : Dict Path δ} (h : Consistent files) (keep : Path × δ → Bool) :
    Consistent (files.filter keep) := by
  have hsub : ((files.filter keep).map (·.1)).Sublist (files.map (·.1)) :=
    filter_sublist.map _
  exact ⟨h.nodup.sublist hsub, fun p hp q hq => h.apart p (hsub.subset hp) q (hsub.subset hq)⟩

lemma mem_keys_of_get? [DecidableEq κ] {key : κ} {value : ν} (h : d.get? key = some value) :
    key ∈ d.keys :=
  mem_map.2 ⟨_, mem_of_get? h, rfl⟩

lemma get?_of_notMem [DecidableEq κ] {key : κ} (h : key ∉ d.keys) : d.get? key = none := by
  cases hget : d.get? key with
  | none => rfl
  | some => exact absurd (mem_keys_of_get? hget) h

lemma exists_of_mem_keys [DecidableEq κ] {key : κ} (h : key ∈ d.keys) :
    ∃ value, d.get? key = some value := by
  obtain ⟨entry, hentry, rfl⟩ := mem_map.1 h
  have hhas : d.has entry.1 = true := any_eq_true.2 ⟨entry, hentry, decide_eq_true rfl⟩
  exact isSome_iff_exists.1 ((has_iff d entry.1).1 hhas)

lemma get?_unlink (files : Dict Path δ) (path other : Path) :
    (unlink files path).get? other = if other = path then none else files.get? other := by
  rw [unlink, get?_filter_keys files (fun key => decide (key ≠ path)) other]
  by_cases heq : other = path
  · rw [if_pos heq, if_neg (by rw [decide_eq_true_eq]; exact not_not.2 heq)]
  rw [if_neg heq, if_pos (decide_eq_true heq)]

lemma runJobs_append (a b : List (Job δ)) (p : Progress δ) :
    runJobs D name (a ++ b) p = if (runJobs D name a p).2 then runJobs D name b (runJobs D name a p).1
      else runJobs D name a p := by
  induction a generalizing p with
  | nil => rfl
  | cons job rest ih =>
    rw [cons_append, runJobs, runJobs]
    cases job.run D name p with
    | none => rfl
    | some next => exact ih next

lemma runJobs_append_ok {a b : List (Job δ)} (h : runJobs D name (a ++ b) p = (q, true)) :
    ∃ m, runJobs D name a p = (m, true) ∧ runJobs D name b m = (q, true) := by
  rw [runJobs_append] at h
  split at h
  · next hdone => exact ⟨_, Prod.ext rfl hdone, h⟩
  next hdone =>
  rw [h] at hdone
  exact absurd rfl hdone

variable (D) in
def synced (current : Option δ) (source : δ) (previous : String) : Option δ × String :=
  if shouldInstall D current source previous then (some source, D.hash source)
  else (current, previous)

structure Synced (D : Sha256 δ) (fs : Dict Path δ) (prev : Path → String) (p q : Progress δ) : Prop where
  files : ∀ path, q.files.get? path
    = (fs.get? path).elim (p.files.get? path) (fun c => (synced D (p.files.get? path) c (prev path)).1)
  installed : q.installed
    = p.installed ++ fs.map (fun f => (f.1, (synced D (p.files.get? f.1) f.2 (prev f.1)).2))
  orphaned : q.orphaned = p.orphaned
  consistent : Consistent p.files → Consistent q.files

lemma run_sync {source : δ} {previous : String}
    (h : (Job.sync path source previous).run D name p = some q) : (∀ other, q.files.get? other
        = if other = path then (synced D (p.files.get? path) source previous).1 else p.files.get? other)
      ∧ q.installed = p.installed.set path (synced D (p.files.get? path) source previous).2
      ∧ q.orphaned = p.orphaned ∧ (Consistent p.files → Consistent q.files) := by
  unfold Job.run at h
  simp only at h
  unfold synced
  by_cases hblocked : blocked p.files path = true
  · rw [if_pos hblocked] at h
    cases h
  rw [if_neg hblocked] at h
  by_cases hinstall : shouldInstall D (p.files.get? path) source previous = true
  · rw [if_pos hinstall] at h ⊢
    obtain rfl := some.inj h
    refine ⟨fun other => ?_, rfl, rfl, fun hc => hc.set (Bool.not_eq_true _ ▸ hblocked) source⟩
    rw [get?_set]
    by_cases heq : path = other
    · rw [if_pos heq, if_pos heq.symm]
    rw [if_neg heq, if_neg (Ne.symm heq)]
  rw [if_neg hinstall] at h ⊢
  obtain rfl := some.inj h
  refine ⟨fun other => ?_, rfl, rfl, fun hc => hc⟩
  by_cases heq : other = path
  · rw [if_pos heq, heq]
  rw [if_neg heq]

lemma runJobs_sync {fs : Dict Path δ} {prev : Path → String} (hnodup : fs.keys.Nodup)
    (hnew : ∀ path ∈ fs.keys, path ∉ p.installed.keys)
    (h : runJobs D name (fs.map (fun f => .sync f.1 f.2 (prev f.1))) p = (q, true)) :
    Synced D fs prev p q := by
  induction fs generalizing p with
  | nil =>
    obtain ⟨rfl, -⟩ := Prod.mk.inj h
    exact ⟨fun _ => rfl, (append_nil _).symm, rfl, fun hc => hc⟩
  | cons f rest ih =>
    obtain ⟨hfirst, hrest⟩ := nodup_cons.1 hnodup
    rw [map_cons, runJobs] at h
    cases hrun : (Job.sync f.1 f.2 (prev f.1)).run D name p with
    | none =>
      rw [hrun] at h
      cases (Prod.mk.inj h).2
    | some m =>
      rw [hrun] at h
      obtain ⟨hfiles, hinstalled, horphaned, hconsistent⟩ := run_sync hrun
      have hf : f.1 ∉ p.installed.keys := hnew f.1 mem_cons_self
      rw [set_of_notMem hf] at hinstalled
      have hne : ∀ path ∈ Dict.keys rest, path ≠ f.1 := by
        rintro path hpath rfl
        exact hfirst hpath
      have hmore : ∀ path ∈ Dict.keys rest, path ∉ m.installed.keys := by
        intro path hpath hmem
        rw [hinstalled, Dict.keys, map_append, mem_append] at hmem
        rcases hmem with hmem | hmem
        · exact hnew path (mem_cons_of_mem _ hpath) hmem
        exact hne path hpath (mem_singleton.1 hmem)
      have hlater := ih hrest hmore h
      constructor
      · intro path
        rw [hlater.files path, get?_cons, hfiles path]
        by_cases heq : f.1 = path
        · subst heq
          rw [if_pos rfl, if_pos rfl, get?_of_notMem hfirst]
          rfl
        rw [if_neg heq, if_neg (Ne.symm heq)]
      · rw [hlater.installed, hinstalled, map_cons, append_assoc]
        have hsame : rest.map (fun g => (g.1, (synced D (m.files.get? g.1) g.2 (prev g.1)).2))
            = rest.map (fun g => (g.1, (synced D (p.files.get? g.1) g.2 (prev g.1)).2)) := by
          apply map_congr_left
          intro g hg
          rw [hfiles g.1, if_neg (hne g.1 (mem_map_of_mem hg))]
        rw [hsame]
        rfl
      · rw [hlater.orphaned, horphaned]
      exact fun hc => hlater.consistent (hconsistent hc)

variable (D) in
def keeps (current : Option δ) (installedHash : String) : Bool :=
  current.any (fun content => !(decide (installedHash ≠ "") && decide (D.hash content = installedHash)))

/-- What was done with the files that the version no longer has. -/
structure Cleaned (D : Sha256 δ) (st : Dict Path String) (p q : Progress δ) : Prop where
  files : ∀ path, q.files.get? path = (st.get? path).elim (p.files.get? path)
    (fun h => if keeps D (p.files.get? path) h then p.files.get? path else none)
  installed : q.installed = p.installed
  orphaned : q.orphaned = p.orphaned ++ st.filter (fun e => keeps D (p.files.get? e.1) e.2)
  consistent : Consistent p.files → Consistent q.files

def Proper (path : Path) : Prop := leavesRoot 0 path = false ∧ isGenerated path = false

lemma run_stale {installedHash : String} (hproper : Proper path)
    (h : (Job.stale path installedHash).run D name p = some q) :
    (∀ other, q.files.get? other = if other = path then
        (if keeps D (p.files.get? path) installedHash then p.files.get? path else none)
        else p.files.get? other)
      ∧ q.installed = p.installed
      ∧ q.orphaned = (if keeps D (p.files.get? path) installedHash then
        p.orphaned.set path installedHash else p.orphaned)
      ∧ (Consistent p.files → Consistent q.files) := by
  unfold Job.run at h
  simp only [hproper.1, hproper.2, Bool.false_eq_true, if_false] at h
  cases hcurrent : p.files.get? path with
  | none =>
    rw [hcurrent] at h
    simp only at h
    split at h
    · cases h
    obtain rfl := some.inj h
    refine ⟨fun other => ?_, rfl, rfl, fun hc => hc⟩
    by_cases heq : other = path
    · rw [if_pos heq, heq, hcurrent]
      rfl
    rw [if_neg heq]
  | some content =>
    rw [hcurrent] at h
    simp only at h
    by_cases hown : installedHash ≠ "" ∧ D.hash content = installedHash
    · rw [if_pos hown] at h
      obtain rfl := some.inj h
      have hkeeps : keeps D (some content) installedHash = false := by
        simp [keeps, hown.1, hown.2]
      refine ⟨fun other => ?_, rfl, by rw [hkeeps]; rfl, fun hc => hc.filter _⟩
      rw [get?_unlink, hkeeps]
      rfl
    rw [if_neg hown] at h
    obtain rfl := some.inj h
    have hkeeps : keeps D (some content) installedHash = true := by
      simp only [keeps, any_some, Bool.not_eq_true', Bool.and_eq_false_iff,
        decide_eq_false_iff_not]
      exact not_and_or.1 hown
    refine ⟨fun other => ?_, rfl, by rw [hkeeps]; rfl, fun hc => hc⟩
    by_cases heq : other = path
    · rw [if_pos heq, heq, hcurrent, hkeeps]
      rfl
    rw [if_neg heq]

lemma runJobs_stale {st : Dict Path String} (hnodup : st.keys.Nodup)
    (hproper : ∀ path ∈ st.keys, Proper path) (hnew : ∀ path ∈ st.keys, path ∉ p.orphaned.keys)
    (h : runJobs D name (st.map (fun e => .stale e.1 e.2)) p = (q, true)) : Cleaned D st p q := by
  induction st generalizing p with
  | nil =>
    obtain ⟨rfl, -⟩ := Prod.mk.inj h
    exact ⟨fun _ => rfl, rfl, (append_nil _).symm, fun hc => hc⟩
  | cons e rest ih =>
    obtain ⟨hfirst, hrest⟩ := nodup_cons.1 hnodup
    rw [map_cons, runJobs] at h
    cases hrun : (Job.stale e.1 e.2).run D name p with
    | none =>
      rw [hrun] at h
      cases (Prod.mk.inj h).2
    | some m =>
      rw [hrun] at h
      obtain ⟨hfiles, hinstalled, horphaned, hconsistent⟩ :=
        run_stale (hproper e.1 mem_cons_self) hrun
      have hne : ∀ path ∈ Dict.keys rest, path ≠ e.1 := by
        rintro path hpath rfl
        exact hfirst hpath
      have he : e.1 ∉ p.orphaned.keys := hnew e.1 mem_cons_self
      rw [set_of_notMem he] at horphaned
      have hmore : ∀ path ∈ Dict.keys rest, path ∉ m.orphaned.keys := by
        intro path hpath hmem
        have hold := hnew path (mem_cons_of_mem _ hpath)
        rw [horphaned] at hmem
        split at hmem
        · rw [Dict.keys, map_append, mem_append] at hmem
          exact hmem.elim hold (fun hlast => hne path hpath (mem_singleton.1 hlast))
        exact hold hmem
      have hlater := ih hrest (fun path hpath => hproper path (mem_cons_of_mem _ hpath)) hmore h
      constructor
      · intro path
        rw [hlater.files path, get?_cons, hfiles path]
        by_cases heq : e.1 = path
        · subst heq
          rw [if_pos rfl, if_pos rfl, get?_of_notMem hfirst]
          rfl
        rw [if_neg heq, if_neg (Ne.symm heq)]
      · rw [hlater.installed, hinstalled]
      · have hsame : rest.filter (fun g => keeps D (m.files.get? g.1) g.2)
            = rest.filter (fun g => keeps D (p.files.get? g.1) g.2) := by
          apply filter_congr
          intro g hg
          rw [hfiles g.1, if_neg (hne g.1 (mem_map_of_mem hg))]
        rw [hlater.orphaned, horphaned, hsame, filter_cons]
        split
        · rw [append_assoc]
          rfl
        rfl
      exact fun hc => hlater.consistent (hconsistent hc)

end

/-! ## A completed run -/

section
variable {δ : Type} {D : Sha256 δ} {name owner : String} {v : Version δ}

lemma Version.nodup_sourceFiles (v : Version δ) : v.sourceFiles.keys.Nodup := by
  refine nodup_cons.2 ⟨fun hmem => ?_, v.nodup⟩
  exact absurd (v.inScript definitionPath hmem) (by decide)

lemma leavesRoot_eq_false {path : Path} (h : ".." ∉ path) (depth : Nat) :
    leavesRoot depth path = false := by
  induction path generalizing depth with
  | nil => rfl
  | cons first rest ih =>
    obtain ⟨hfirst, hrest⟩ := not_or.1 (fun hor => h (mem_cons.2 hor))
    rw [leavesRoot, if_neg (Ne.symm hfirst)]
    exact ih hrest _

lemma Version.proper (v : Version δ) : ∀ path ∈ v.sourceFiles.keys, Proper path := by
  intro path hpath
  have hdefinition : Proper definitionPath := ⟨by decide, by decide⟩
  rcases mem_cons.1 hpath with rfl | hpath
  · exact hdefinition
  exact ⟨leavesRoot_eq_false (v.noParent path hpath) 0, v.notGenerated path hpath⟩

/-- A marker that runs have written. -/
structure Sensible (m : Marker) : Prop where
  legacy : m.installedHash = ""
  files : m.files.keys.Nodup
  orphaned : m.orphanedFiles.keys.Nodup
  proper : ∀ path, path ∈ m.files.keys ∨ path ∈ m.orphanedFiles.keys → Proper path

variable {m : Marker}

lemma Sensible.previous (h : Sensible m) : previousFiles m = m.files := by
  rw [previousFiles, if_neg (not_not.2 h.legacy)]

lemma has_eq_isSome {κ ν : Type} [DecidableEq κ] (d : Dict κ ν) (key : κ) :
    d.has key = (d.get? key).isSome := by
  rw [Bool.eq_iff_iff]
  exact has_iff d key

lemma Sensible.get?_stale (h : Sensible m) (v : Version δ) (path : Path) :
    (staleFiles m v).get? path = if (v.sourceFiles.get? path).isSome then none
      else (m.files.get? path).or (m.orphanedFiles.get? path) := by
  have hnodup : Dict.keys (m.files.filter (fun e => !v.sourceFiles.has e.1)) |>.Nodup :=
    h.files.sublist (filter_sublist.map _)
  rw [staleFiles, h.previous, get?_filter_keys _ (fun key => !v.sourceFiles.has key),
    get?_update, written_eq_get? hnodup,
    get?_filter_keys _ (fun key => !v.sourceFiles.has key), has_eq_isSome]
  cases (v.sourceFiles.get? path).isSome with
  | _ => rfl

lemma Sensible.stale (h : Sensible m) (v : Version δ) :
    (staleFiles m v).keys.Nodup ∧ ∀ path ∈ (staleFiles m v).keys, Proper path := by
  constructor
  · exact (nodup_keys_update h.orphaned _).sublist (filter_sublist.map _)
  intro path hpath
  obtain ⟨_, hget⟩ := exists_of_mem_keys hpath
  rw [h.get?_stale] at hget
  split at hget
  · cases hget
  apply h.proper
  cases hfile : m.files.get? path with
  | some => exact .inl (mem_keys_of_get? hfile)
  | none =>
    rw [hfile, none_or] at hget
    exact .inr (mem_keys_of_get? hget)

/-- What a completed run has done. -/
structure Provisioned (D : Sha256 δ) (owner : String) (v : Version δ) (dir after : Directory δ)
    (p q : Progress δ) : Prop where
  synced : Synced D v.sourceFiles (fun path => (dir.marker.files.get? path).getD "")
    { files := dir.files } p
  cleaned : Cleaned D (staleFiles dir.marker v) p q
  after : after = { files := q.files.filter (fun e => !isGenerated e.1)
                    marker := { owner := owner, active := true, files := p.installed,
                                orphanedFiles := q.orphaned } }

lemma provisioned {dir after : Directory δ} (hm : Sensible dir.marker)
    (h : provision D name owner v none dir = (after, true)) :
    ∃ p q, Provisioned D owner v dir after p q := by
  unfold provision at h
  cases hconflict : conflict name owner dir with
  | some =>
    rw [hconflict] at h
    cases (Prod.mk.inj h).2
  | none =>
    rw [hconflict] at h
    simp only at h
    split at h
    · next hdone =>
      obtain ⟨rfl, -⟩ := Prod.mk.inj h
      obtain ⟨p, hp, hrest⟩ := runJobs_append_ok (Prod.ext rfl hdone)
      obtain ⟨q, hq, hsweep⟩ := runJobs_append_ok hrest
      rw [hm.previous] at hp
      have hsynced : Synced D v.sourceFiles (fun path => (dir.marker.files.get? path).getD "")
          { files := dir.files } p :=
        runJobs_sync v.nodup_sourceFiles (nofun) hp
      have horphaned : p.orphaned = [] := hsynced.orphaned
      have hcleaned := runJobs_stale (hm.stale v).1 (hm.stale v).2
        (fun path _ hmem => by rw [horphaned] at hmem; cases hmem) hq
      refine ⟨p, q, hsynced, hcleaned, ?_⟩
      have hresult : (runJobs D name (jobs dir.marker v) { files := dir.files }).1
          = { q with files := q.files.filter (fun e => !isGenerated e.1) } :=
        (Prod.mk.inj hsweep).1.symm
      rw [hresult]
      simp only [hcleaned.installed]
    cases (Prod.mk.inj h).2

end
end DeterminFlow.Plugins.Provisioning
