/-
  Plugins.CatalogService
  **A CATALOG OF SOURCES THAT WERE REPLACED.**

  A fetch runs outside the lock with the sources it captured and stores its
  catalog whatever happened in between.  The catalog of several sources ends
  with the first exception that is no `ValueError`.
-/
import DeterminFlow.Library.Runs
import Mathlib.Data.Set.List

namespace DeterminFlow.Plugins.CatalogService

open Library List Option

/-! ## The catalog -/

inductive Fault where
  | registry (message : String)
  | value (message selectedUrl : String)
  | other (message : String)
  deriving DecidableEq

structure Plugin where
  id : String
  source : String
  resolvedCommit : String
  deriving DecidableEq

/-- What a registry or a repository delivers. -/
structure Fetched where
  plugins : List Plugin
  url : String
  commit : String
  deriving DecidableEq

structure SourceResult (Src : Type) where
  source : Src
  resolvedCommit : String := ""
  pluginCount : Nat := 0
  error : String := ""
  selectedUrl : String := ""
  transport : String := ""
  deriving DecidableEq

structure Catalog (Src : Type) where
  sources : List (SourceResult Src)
  plugins : List Plugin
  deriving DecidableEq

variable {Src : Type}

def delivered (s : Src) (transport : String) (f : Fetched) : List Plugin × SourceResult Src :=
  (f.plugins, ⟨s, f.commit, f.plugins.length, "", f.url, transport⟩)

/-- `except ValueError`. -/
def caught (s : Src) : Fault → Except Fault (List Plugin × SourceResult Src)
  | .value message url => .ok ([], { source := s, error := message, selectedUrl := url })
  | fault => .error fault

def Fault.isCaught : Fault → Bool
  | .value _ _ => true
  | _ => false

section

-- an official source with a registry, and the answers of the network
variable (official : Src → Bool) (registry git : Src → Except Fault Fetched)

def fetchGit (s : Src) : Except Fault (List Plugin × SourceResult Src) :=
  match git s with
  | .ok f => .ok (delivered s "git" f)
  | .error fault => caught s fault

/-- One turn of the loop of `fetch_plugin_catalog`. -/
def fetchSource (s : Src) : Except Fault (List Plugin × SourceResult Src) :=
  match official s, registry s with
  | true, .ok f => .ok (delivered s "registry" f)
  | true, .error (.registry _) => fetchGit git s
  | true, .error fault => caught s fault
  | false, _ => fetchGit git s

def assemble (rows : List (List Plugin × SourceResult Src)) : Catalog Src where
  sources := rows.map (·.2)
  plugins := (rows.flatMap (·.1)).mergeSort
    fun p q => decide (p.id < q.id ∨ p.id = q.id ∧ p.source ≤ q.source)

def fetchPluginCatalog (sources : List Src) : Except Fault (Catalog Src) :=
  (sources.mapM (fetchSource official registry git)).map assemble

/-- The loop catches what the network raises for the source. -/
def contained (s : Src) : Bool :=
  match official s, registry s, git s with
  | true, .ok _, _ => true
  | true, .error (.value _ _), _ => true
  | true, .error (.other _), _ => false
  | _, _, .ok _ => true
  | _, _, .error fault => fault.isCaught

/-- If a source has a result, all results are the sources' own. -/
def Isolated (sources : List Src) : Prop :=
  (∃ s ∈ sources, ∃ row, fetchSource official registry git s = .ok row) →
    ∃ rows, rows.map .ok = sources.map (fetchSource official registry git) ∧
      fetchPluginCatalog official registry git sources = .ok (assemble rows)

lemma contained_iff (s : Src) : contained official registry git s = true ↔
      ∃ row, fetchSource official registry git s = .ok row := by
  unfold contained fetchSource fetchGit
  rcases official s <;> rcases registry s with (_ | _ | _) | _ <;>
    rcases git s with (_ | _ | _) | _ <;> simp [caught, Fault.isCaught]

lemma mapM_of_map {α β ε : Type} {f : α → Except ε β} {xs : List α} {ys : List β}
    (h : ys.map .ok = xs.map f) : xs.mapM f = .ok ys := by
  induction xs generalizing ys with
  | nil =>
    obtain rfl := map_eq_nil_iff.1 h
    rfl
  | cons x xs ih =>
    obtain ⟨_, _, rfl, hx, hrest⟩ := map_eq_cons_iff.1 h
    rw [mapM_cons, ← hx, ih hrest]
    rfl

lemma isolated_iff (sources : List Src) : Isolated official registry git sources ↔
    ((∃ s ∈ sources, contained official registry git s = true) →
      ∀ s ∈ sources, contained official registry git s = true) := by
  simp only [Isolated, contained_iff]
  refine imp_congr_right fun _ => ⟨?_, fun hall => ?_⟩
  · rintro ⟨rows, hrows, -⟩ s hs
    obtain ⟨row, -, hrow⟩ := mem_map.1 (hrows ▸ mem_map_of_mem hs)
    exact ⟨row, hrow.symm⟩
  have hrange : sources.map (fetchSource official registry git)
      ∈ Set.range (map (Except.ok (ε := Fault))) := by
    rw [Set.range_list_map]
    intro _ hresult
    obtain ⟨s, hs, rfl⟩ := mem_map.1 hresult
    obtain ⟨row, hrow⟩ := hall s hs
    exact ⟨row, hrow.symm⟩
  obtain ⟨rows, hrows⟩ := hrange
  refine ⟨rows, hrows, ?_⟩
  rw [fetchPluginCatalog, mapM_of_map hrows]
  rfl

end

/-! ## The service -/

/-- `PluginCatalogService`; a catalog is known by the sources it was computed
from.  Ghost: the sources when a `get` began, with its answer. -/
structure Service (Src : Type) where
  sources : List Src
  ttl : Int := 300
  refreshing : Bool := false
  cachedAt : Int := 0
  cache : Option (List Src) := none
  /-- The fetches, and which of them have cleared `_refreshing`. -/
  fetches : List (List Src × Bool) := []
  answers : List (List Src × Option (List Src)) := []
  deriving DecidableEq

inductive Block (Src : Type) where
  | replaceSources (sources : List Src)
  | get (refresh : Bool) (now : Int)
  /-- The fetch is over, or it raised; the `finally` block. -/
  | clear (fetch : Nat) (raised : Bool)
  | store (fetch : Nat) (now : Int)
  deriving DecidableEq

def Service.step (s : Service Src) : Block Src → Option (Service Src)
  | .replaceSources sources => some { s with sources := sources, cachedAt := 0, cache := none }
  | .get refresh now =>
    if refresh = false ∧ s.cache.isSome ∧ now - s.cachedAt < s.ttl ∨ s.refreshing = true then
      some { s with answers := s.answers ++ [(s.sources, s.cache)] }
    else some { s with refreshing := true, fetches := s.fetches ++ [(s.sources, false)] }
  | .clear fetch raised =>
    match s.fetches[fetch]? with
    | some (sources, false) => some { s with
        refreshing := false
        fetches := if raised then s.fetches.eraseIdx fetch else s.fetches.set fetch (sources, true) }
    | _ => none
  | .store fetch now =>
    match s.fetches[fetch]? with
    | some (sources, true) => some { s with
        cache := some sources
        cachedAt := now
        fetches := s.fetches.eraseIdx fetch
        answers := s.answers ++ [(sources, some sources)] }
    | _ => none

def Fresh (s : Service Src) : Prop :=
  ∀ a ∈ s.answers, ∀ sources, a.2 = some sources → sources = a.1

/-- The sources are not replaced during a fetch. -/
def Quiet (s : Service Src) (b : Block Src) : Prop :=
  ∀ sources, b = .replaceSources sources → s.fetches = []

structure Current (s : Service Src) : Prop where
  cache : ∀ sources, s.cache = some sources → sources = s.sources
  fetches : ∀ f ∈ s.fetches, f.1 = s.sources
  fresh : Fresh s

lemma Current.step {s s' : Service Src} {b : Block Src} (h : Current s) (hquiet : Quiet s b)
    (hstep : s.step b = some s') : Current s' := by
  cases b with
  | replaceSources sources =>
    obtain rfl := some.inj hstep
    exact ⟨nofun, fun f hf => absurd (hquiet sources rfl ▸ hf) not_mem_nil, h.fresh⟩
  | get refresh now =>
    simp only [Service.step] at hstep
    split at hstep
    · obtain rfl := some.inj hstep
      exact ⟨h.cache, h.fetches, forall_mem_append.2 ⟨h.fresh, forall_mem_singleton.2 h.cache⟩⟩
    obtain rfl := some.inj hstep
    exact ⟨h.cache, forall_mem_append.2 ⟨h.fetches, forall_mem_singleton.2 rfl⟩, h.fresh⟩
  | clear fetch raised =>
    simp only [Service.step] at hstep
    split at hstep
    · rename_i sources hfetch
      obtain rfl := some.inj hstep
      refine ⟨h.cache, fun f hf => ?_, h.fresh⟩
      have hmem := h.fetches _ (mem_of_getElem? hfetch)
      dsimp only at hf
      split at hf
      · exact h.fetches f (mem_of_mem_eraseIdx hf)
      rcases mem_or_eq_of_mem_set hf with hf | rfl
      · exact h.fetches f hf
      exact hmem
    cases hstep
  | store fetch now =>
    simp only [Service.step] at hstep
    split at hstep
    · rename_i sources hfetch
      obtain rfl := some.inj hstep
      have hmem := h.fetches _ (mem_of_getElem? hfetch)
      exact ⟨fun _ heq => some.inj heq ▸ hmem,
        fun f hf => h.fetches f (mem_of_mem_eraseIdx hf),
        forall_mem_append.2 ⟨h.fresh, forall_mem_singleton.2 fun _ heq =>
          (some.inj heq).symm⟩⟩
    cases hstep

/-- **A run that replaces no sources during a fetch answers from the sources
in force**, and the results are the sources' own when the network raises
nothing else. -/
theorem catalog_current (official : Src → Bool) (registry git : Src → Except Fault Fetched) :
    (∀ (sources : List Src) (ttl : Int) (blocks : List (Block Src)),
      Runs.Along Service.step Quiet { sources := sources, ttl := ttl } blocks →
      Runs.Always Service.step Fresh { sources := sources, ttl := ttl } blocks) ∧
    ∀ sources : List Src, Isolated official registry git sources ↔
      ((∃ s ∈ sources, contained official registry git s = true) →
        ∀ s ∈ sources, contained official registry git s = true) := by
  refine ⟨fun sources ttl blocks halong => ?_, isolated_iff official registry git⟩
  have hstart : Current ({ sources := sources, ttl := ttl } : Service Src) :=
    ⟨nofun, nofun, nofun⟩
  exact (Runs.always_of_along (fun _ _ _ h hquiet hstep => h.step hquiet hstep) hstart
    halong).mono fun _ h => h.fresh

/-- The sources are replaced during a fetch, and the next `get` answers from
the old ones. -/
theorem catalog_stale : ¬ ∀ (blocks : List (Block Nat)) (s : Service Nat),
    Runs.run Service.step { sources := [0] } blocks = some s → Fresh s := by
  intro h
  have hfresh := h [.get false 0, .replaceSources [1], .clear 0 false, .store 0 1, .get false 2] _
    rfl
  exact absurd (hfresh ([1], some [0]) (by decide) [0] rfl) (by decide)

end DeterminFlow.Plugins.CatalogService
