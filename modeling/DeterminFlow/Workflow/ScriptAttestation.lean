/-
  Workflow.ScriptAttestation
  **WHAT AN ATTESTATION OF A SCRIPT COVERS.**

  The listing skips compiled files and caches and does not follow a link to a
  directory.  A process started on the script reads both, so a compiled file
  more in its directory changes what is read and no attestation.
-/
import Mathlib.Data.Char
import Mathlib.Data.Fintype.EquivFin
import Mathlib.Data.List.Lex
import Mathlib.Data.List.Sort

namespace DeterminFlow.Workflow.ScriptAttestation

open List Option

/-! ## The group directory -/

abbrev Name := List Char

abbrev Path := List Name

/-- What a name stands for; a link to a directory has the files behind it. -/
inductive Node where
  | file (content : String)
  | link (content : String)
  | dir
  | dirLink (files : List (Path × String))
  deriving DecidableEq

def Node.content? : Node → Option String
  | .file content | .link content => some content
  | _ => none

/-- Everything below the group directory, links not followed. -/
structure GroupDir where
  entries : List (Path × Node)
  nodup : (entries.map (·.1)).Nodup

section
variable (group script : Name) (python : Bool) (sha256 : String → String)
  (dumpsSha256 : List (Path × String) → String)

/-- `Path.suffix in _IGNORED_FILE_SUFFIXES`. -/
def hasIgnoredSuffix (name : Name) : Bool :=
  decide (4 < name.length)
    && (['.', 'p', 'y', 'c'].isSuffixOf name || ['.', 'p', 'y', 'o'].isSuffixOf name)

def isIgnoredFile (path : Path) : Bool :=
  path.getLast? == some ".DS_Store".toList || path.getLast?.any hasIgnoredSuffix
    || path.any fun part => part = "__pycache__".toList || part = ".git".toList

/-- Directly in the group, or below the directory of the script. -/
def inScope (path : Path) : Bool :=
  path.length = 1 || [script].isPrefixOf path && decide (1 < path.length)

/-- `sorted(candidates)`. -/
def candidates (s : GroupDir) : List (Path × Node) :=
  (s.entries.filter fun e => inScope script e.1 && e.2.content?.isSome).mergeSort
    fun a b => decide (a.1 ≤ b.1)

/-- `_attested_files`; a link is refused. -/
def attestedFiles (s : GroupDir) : Option (List (Path × String)) :=
  let kept := (candidates script s).filter fun e => !isIgnoredFile e.1
  kept.mapM fun e =>
    match e.2 with
    | .file content => some (e.1, sha256 content)
    | _ => none

structure ScriptLocation where
  owner : String
  revision : String

structure Attestation where
  owner : String
  revision : String
  group : Name
  script : Name
  python : Bool
  entrypointSha256 : String
  filesSha256 : String
  files : List (Path × String)
  deriving DecidableEq

def scriptFile (python : Bool) : Path :=
  [script, script ++ (if python then ['.', 'p', 'y'] else ['.', 's', 'h'])]

def node? (s : GroupDir) (path : Path) : Option Node :=
  (s.entries.find? fun e => e.1 = path).map (·.2)

/-- `_detect_type`; `some true` is Python. -/
def detectType (s : GroupDir) : Option Bool :=
  if (node? s (scriptFile script true)).isSome then some true
  else if (node? s (scriptFile script false)).isSome then some false
  else none

/-- `attest`, for the location that the scan found. -/
def attest (location : ScriptLocation) (s : GroupDir) : Option Attestation :=
  if detectType script s ≠ some python ∨ location.revision = "" then none
  else ((node? s (scriptFile script python)).bind Node.content?).bind fun entrypoint =>
    (attestedFiles script sha256 s).map fun files =>
      ⟨location.owner, location.revision, group, script, python, sha256 entrypoint,
        dumpsSha256 files, files⟩

def verifyAttestation (location : ScriptLocation) (expected : Attestation) (s : GroupDir) :
    Option Attestation :=
  (attest group script python sha256 dumpsSha256 location s).filter (· = expected)

/-- What a process started on the script can read. -/
def readable (s : GroupDir) : List (Path × String) :=
  (s.entries.filter fun e => inScope script e.1).flatMap fun e =>
    match e.2 with
    | .file content | .link content => [(e.1, content)]
    | .dir => []
    | .dirLink files => files.map fun f => (e.1 ++ f.1, f.2)

/-- The states that the attestation of this one is accepted for are read
alike. -/
def Covered (location : ScriptLocation) (s : GroupDir) : Prop :=
  ∀ a, attest group script python sha256 dumpsSha256 location s = some a →
    ∀ s', verifyAttestation group script python sha256 dumpsSha256 location a s' = some a →
      ∀ file, file ∈ readable script s' ↔ file ∈ readable script s

/-! ## A compiled file more -/

def compiledName (n : Nat) : Name := replicate (n + 1) 'x' ++ ['.', 'p', 'y', 'c']

lemma ignored_compiled (n : Nat) : isIgnoredFile [script, compiledName n] = true := by
  have hends : ['.', 'p', 'y', 'c'].isSuffixOf (compiledName n) = true :=
    isSuffixOf_iff_suffix.2 (suffix_append _ _)
  have hlong : 4 < (compiledName n).length := by simp [compiledName]
  have hsuffix : hasIgnoredSuffix (compiledName n) = true := by
    rw [hasIgnoredSuffix, hends, decide_eq_true hlong]
    rfl
  simp only [isIgnoredFile, getLast?_cons_cons, getLast?_singleton, any_some, hsuffix,
    Bool.or_true, Bool.true_or]

lemma exists_fresh (paths : List Path) : ∃ n, [script, compiledName n] ∉ paths := by
  obtain ⟨n, hn⟩ := Infinite.exists_notMem_finset
    (paths.map fun p => (p.getLast?.map length).getD 0 - 5).toFinset
  refine ⟨n, fun hmem => hn (List.mem_toFinset.2 (mem_map.2 ⟨_, hmem, ?_⟩))⟩
  simp [compiledName]

variable {s : GroupDir} {path : Path}

/-- The state with one file more. -/
def GroupDir.add (s : GroupDir) (path : Path) (content : String)
    (hfresh : path ∉ s.entries.map (·.1)) : GroupDir where
  entries := (path, .file content) :: s.entries
  nodup := nodup_cons.2 ⟨hfresh, s.nodup⟩

lemma attestedFiles_add {content : String} (hfresh : path ∉ s.entries.map (·.1))
    (hignored : isIgnoredFile path = true) :
    attestedFiles script sha256 (s.add path content hfresh) = attestedFiles script sha256 s := by
  have hkept : (candidates script (s.add path content hfresh)).filter
        (fun e => !isIgnoredFile e.1)
      = (candidates script s).filter fun e => !isIgnoredFile e.1 := by
    unfold candidates GroupDir.add
    rw [filter_cons]
    split
    · obtain ⟨_, _, hnew, hold, -⟩ := @mergeSort_cons _
        (fun a b : Path × Node => decide (a.1 ≤ b.1)) (fun a b _ => by simpa using le_trans)
        (fun a b => by simpa using le_total a.1 b.1)
        (path, Node.file content)
        (s.entries.filter fun e => inScope script e.1 && e.2.content?.isSome)
      rw [hnew, hold, filter_append, filter_append, filter_cons_of_neg (by simp [hignored])]
    rfl
  unfold attestedFiles
  rw [hkept]

lemma node?_add {content : String} (hfresh : path ∉ s.entries.map (·.1)) {other : Path}
    (hne : path ≠ other) : node? (s.add path content hfresh) other = node? s other := by
  unfold node? GroupDir.add
  rw [find?_cons_of_neg (by simpa using hne)]

lemma attest_add {content : String} (location : ScriptLocation)
    (hfresh : path ∉ s.entries.map (·.1)) (hignored : isIgnoredFile path = true)
    (hne : ∀ python, path ≠ scriptFile script python) :
    attest group script python sha256 dumpsSha256 location (s.add path content hfresh)
      = attest group script python sha256 dumpsSha256 location s := by
  simp only [attest, detectType, node?_add hfresh (hne _),
    attestedFiles_add script sha256 hfresh hignored]
  rfl

lemma not_covered {location : ScriptLocation} {a : Attestation}
    (ha : attest group script python sha256 dumpsSha256 location s = some a) :
    ¬ Covered group script python sha256 dumpsSha256 location s := by
  intro h
  obtain ⟨n, hfresh⟩ := exists_fresh script (scriptFile script true :: scriptFile script false
    :: (s.entries.map (·.1) ++ (readable script s).map (·.1)))
  simp only [mem_cons, mem_append, not_or] at hfresh
  obtain ⟨hpython, hshell, hentry, hread⟩ := hfresh
  have hattest := @attest_add group script python sha256 dumpsSha256 s _ "" location
    hentry (ignored_compiled script n) (Bool.forall_bool.2 ⟨hshell, hpython⟩)
  have hsame := h a ha (s.add _ "" hentry) (by
    rw [verifyAttestation, hattest, ha]
    exact filter_some_pos (decide_eq_true rfl))
  refine hread (mem_map_of_mem ((hsame ([script, compiledName n], "")).1 ?_))
  refine mem_flatMap.2 ⟨_, mem_filter.2 ⟨mem_cons_self, ?_⟩, mem_singleton_self _⟩
  simp [inScope]

/-- **Only a script that is refused is covered.** -/
theorem attested_covered_iff (location : ScriptLocation) (s : GroupDir) :
    Covered group script python sha256 dumpsSha256 location s ↔
      attest group script python sha256 dumpsSha256 location s = none := by
  refine ⟨fun h => ?_, fun h a ha => absurd (h.symm.trans ha) nofun⟩
  by_contra hnone
  obtain ⟨a, ha⟩ := ne_none_iff_exists'.1 hnone
  exact not_covered _ _ _ _ _ ha h

end

/-! ## A directory with one script -/

def oneScript : GroupDir where
  entries := [(["s".toList], .dir), (["s".toList, "s.py".toList], .file "import util")]
  nodup := by decide

theorem oneScript_not_covered :
    ¬ Covered "g".toList "s".toList true id (fun _ => "") ⟨"user", "local"⟩ oneScript := by
  have hattest : (attest "g".toList "s".toList true id (fun _ => "") ⟨"user", "local"⟩
      oneScript).isSome = true := by decide +kernel
  obtain ⟨_, ha⟩ := isSome_iff_exists.1 hattest
  exact not_covered _ _ _ _ _ ha

end DeterminFlow.Workflow.ScriptAttestation
