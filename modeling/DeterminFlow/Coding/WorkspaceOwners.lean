/-
  Coding.WorkspaceOwners
  **WHOSE DIRECTORY A WORKSPACE IS.**

  Four kinds of owners share one root: sessions and workflows have a directory
  in it, and what a main session starts has one below `_main`.  The characters
  that an id may not have are deleted, so different ids can end alike, and one
  of them can be `_main` itself.
-/
import Mathlib.Data.List.Infix

namespace DeterminFlow.Coding.WorkspaceOwners

open List Option

/-! ## Ids and directories -/

def isSafe (c : Char) : Bool := c.isAlphanum || c = '_' || c = '-'

/-- `_sanitize_id`; nothing left raises. -/
def sanitizeId (rawId : String) : Option String :=
  let safe := rawId.toList.filter isSafe
  if safe = [] then none else some (String.ofList safe)

inductive Owner where
  | session (id : String)
  | workflow (id : String)
  /-- A task of a main session, on its own. -/
  | task (session task : String)
  /-- A name that the tasks of a main session share. -/
  | shared (session ref : String)
  deriving DecidableEq

abbrev Path := List String

def below (kind session name : String) : Option Path :=
  (sanitizeId session).bind fun session =>
    (sanitizeId name).map fun name => ["_main", session, kind, name]

/-- The directory below the root; `none` where the call raises. -/
def directory : Owner → Option Path
  | .session id => (sanitizeId id).map fun safe => [safe]
  | .workflow id => (sanitizeId id).map fun safe => [safe]
  | .task session task => below "tasks" session task
  | .shared session ref => below "shared" session ref

/-- `cleanup_workspace` and `cleanup_workflow_workspace`; the others have no
cleanup. -/
def cleanup (files : List Path) : Owner → List Path
  | .session id | .workflow id =>
    match sanitizeId id with
    | none => files
    | some safe => files.filter fun file => !([safe].isPrefixOf file)
  | _ => files

/-- Neither directory is the other or in it, and neither cleanup deletes a
file of the other. -/
def Apart (a b : Owner) : Prop :=
  ∀ p q, directory a = some p → directory b = some q →
    (¬ p <+: q ∧ ¬ q <+: p) ∧
    ∀ files : List Path, (∀ file ∈ files, q <+: file → file ∈ cleanup files a) ∧
      ∀ file ∈ files, p <+: file → file ∈ cleanup files b

/-! ## Ids that end alike -/

def Alike (x y : String) : Prop := ∃ safe, sanitizeId x = some safe ∧ sanitizeId y = some safe

/-- The id is `_main`, and the other owner is valid. -/
def IsMain (id session name : String) : Prop :=
  sanitizeId id = some "_main" ∧ (sanitizeId session).isSome ∧ (sanitizeId name).isSome

def Clash : Owner → Owner → Prop
  | .session x, .session y | .session x, .workflow y
  | .workflow x, .session y | .workflow x, .workflow y => Alike x y
  | .session x, .task s t | .session x, .shared s t | .workflow x, .task s t
  | .workflow x, .shared s t | .task s t, .session x | .shared s t, .session x
  | .task s t, .workflow x | .shared s t, .workflow x => IsMain x s t
  | .task s t, .task s' t' | .shared s t, .shared s' t' => Alike s s' ∧ Alike t t'
  | .task _ _, .shared _ _ | .shared _ _, .task _ _ => False

lemma mem_cleanup {a : Owner} {p q file : Path} {files : List Path} (hdir : directory a = some p)
    (hapart : ¬ p <+: q ∧ ¬ q <+: p) (hmem : file ∈ files) (hfile : q <+: file) :
    file ∈ cleanup files a := by
  have hother : ¬ p <+: file := fun hp =>
    ( prefix_or_prefix_of_prefix hp hfile).elim hapart.1 hapart.2
  cases a with
  | task => exact hmem
  | shared => exact hmem
  | session id | workflow id =>
    obtain ⟨_, hsafe, rfl⟩ := map_eq_some_iff.1 hdir
    simp only [cleanup, hsafe, mem_filter, hmem, true_and, Bool.not_eq_true', ← Bool.not_eq_true,
      isPrefixOf_iff_prefix]
    exact hother

def DisjointPaths (p? q? : Option Path) : Prop :=
  ∀ p q, p? = some p → q? = some q → ¬ p <+: q ∧ ¬ q <+: p

lemma DisjointPaths.comm {p? q? : Option Path} : DisjointPaths p? q? ↔ DisjointPaths q? p? :=
  ⟨fun h p q hp hq => (h q p hq hp).symm, fun h p q hp hq => (h q p hq hp).symm⟩

lemma apart_iff_disjoint (a b : Owner) : Apart a b ↔ DisjointPaths (directory a) (directory b) := by
  refine ⟨fun h p q hp hq => (h p q hp hq).1, fun h p q hp hq => ⟨h p q hp hq, fun _ => ?_⟩⟩
  have hapart := h p q hp hq
  exact ⟨fun file hmem hfile => mem_cleanup hp hapart hmem hfile,
    fun file hmem hfile => mem_cleanup hq hapart.symm hmem hfile⟩

lemma disjoint_roots (x y : String) :
    DisjointPaths ((sanitizeId x).map fun safe => [safe]) ((sanitizeId y).map fun safe => [safe])
      ↔ ¬ Alike x y := by
  unfold DisjointPaths Alike
  cases sanitizeId x <;> cases sanitizeId y <;> simp [cons_prefix_cons, eq_comm]

lemma disjoint_main (x kind s t : String) :
    DisjointPaths ((sanitizeId x).map fun safe => [safe]) (below kind s t) ↔ ¬ IsMain x s t := by
  unfold DisjointPaths IsMain below
  cases sanitizeId x <;> cases sanitizeId s <;> cases sanitizeId t <;> simp [cons_prefix_cons]

lemma disjoint_below (kind kind' s t s' t' : String) :
    DisjointPaths (below kind s t) (below kind' s' t')
      ↔ ¬ (kind = kind' ∧ Alike s s' ∧ Alike t t') := by
  unfold DisjointPaths Alike below
  cases sanitizeId s <;> cases sanitizeId t <;> cases sanitizeId s' <;> cases sanitizeId t' <;>
    simp [cons_prefix_cons]
  grind

/-- **Two owners are apart unless their ids end alike**, or one is `_main`. -/
theorem owners_apart_iff (a b : Owner) : Apart a b ↔ ¬ Clash a b := by
  rw [apart_iff_disjoint]
  cases a <;> cases b
  case session.session | session.workflow | workflow.session | workflow.workflow =>
    exact disjoint_roots _ _
  case session.task | session.shared | workflow.task | workflow.shared =>
    exact disjoint_main _ _ _ _
  case task.session | shared.session | task.workflow | shared.workflow =>
    exact DisjointPaths.comm.trans (disjoint_main _ _ _ _)
  all_goals
    refine (disjoint_below _ _ _ _ _ _).trans ?_
    simp [Clash]

theorem dotted_not_apart : ¬ ∀ a b : Owner, a ≠ b → Apart a b := by
  intro h
  have hapart := (h (.session "a.b") (.session "ab") (by decide)) ["ab"] ["ab"]
    (by decide +kernel) (by decide +kernel)
  exact hapart.1.1 (prefix_refl _)

end DeterminFlow.Coding.WorkspaceOwners
