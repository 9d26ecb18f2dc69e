/-
  Context.ContextLimits
  **THE LIMIT OF THE MODEL THAT IS CALLED.**

  Three functions resolve one model override.  `create_llm` picks the model
  of the call; `get_model_info` gives the compaction its limit;
  `get_max_context_tokens` gives the request trimming its own.  They fall
  back differently: on the entry of a model, on its provider, on the
  provider of the default model; and `get_model_info` calls itself with the
  default model.
-/
import DeterminFlow.Library.Dict

namespace DeterminFlow.Context

open Library List Option

/-! ## The configuration -/

abbrev Name := List Char

/-- An entry of `models_config`. -/
structure ModelEntry where
  maxContextTokens : Option Int := none
  providerType : Option Name := none

/-- A provider, as `get_provider` returns it: the key is the resolved one.  An
empty provider counts as an absent one. -/
structure Provider where
  name : Name := []
  models : List Name := []
  modelsConfig : Dict Name ModelEntry := []
  maxContextTokens : Option Int := none
  apiKey : Name := []
  baseUrl : Option Name := none
  /-- `_infer_provider_type`. -/
  providerType : Name := []

structure ModelsConfig where
  providers : Dict Name Provider
  /-- The model of the main agent, in the agents configuration. -/
  mainModel : Option Name

def defaultMaxContextTokens : Int := 128000

/-- `text.split(":", 1)` of a text with a colon. -/
def splitColon : Name → Option (Name × Name)
  | [] => none
  | c :: text =>
    if c = ':' then some ([], text) else (splitColon text).map fun (p, m) => (c :: p, m)

/-- `provider_id:model_name`. -/
def modelKey (pid model : Name) : Name := pid ++ ':' :: model

namespace ModelsConfig

variable (c : ModelsConfig)

def getAllModels : List Name :=
  c.providers.flatMap fun (pid, provider) => provider.models.map (modelKey pid)

def getDefaultModel : Option Name :=
  (c.mainModel.filter (· ≠ [])).or c.getAllModels.head?

/-- The provider and the model that an override in the new format names. -/
def named (model : Option Name) : Option (Name × Name × Provider) := do
  let (pid, name) ← model.bind splitColon
  let provider ← c.providers.get? pid
  return (pid, name, provider)

/-! ## The three functions -/

/-- What the provider of the default model says. -/
def defaultProviderLimit : Int :=
  ((c.named c.getDefaultModel).bind fun (_, _, provider) => provider.maxContextTokens).getD
    defaultMaxContextTokens

def getMaxContextTokens (override : Option Name) : Int :=
  ((c.named override).bind fun (_, model, provider) =>
    match provider.modelsConfig.get? model with
    -- an entry without a limit ends the search: the provider is not asked
    | some entry => some (entry.maxContextTokens.getD defaultMaxContextTokens)
    | none => provider.maxContextTokens).getD c.defaultProviderLimit

end ModelsConfig

/-- The limit that the configuration gives a model of a provider. -/
def Provider.limitOf (provider : Provider) (model : Name) : Int :=
  ((provider.modelsConfig.get? model).bind (·.maxContextTokens)).getD
    (provider.maxContextTokens.getD defaultMaxContextTokens)

structure ModelInfo where
  providerId : Name := []
  modelName : Name := []
  maxContextTokens : Int := defaultMaxContextTokens
  providerName : Name := []
  providerType : Option Name := none

inductive InfoError where
  /-- The interpreter has no frame left. -/
  | recursionError
  /-- `_require_provider_type` of an unknown type. -/
  | valueError
  deriving DecidableEq

/-- `get_model_provider_type`; `none` is a type that `normalize_provider_type`
does not know. -/
def Provider.getModelProviderType (normalize : Name → Option Name) (provider : Provider)
    (model : Name) : Option Name :=
  match (provider.modelsConfig.get? model).bind (·.providerType) with
  | none => some provider.providerType
  | some text => normalize text

namespace ModelsConfig

variable (normalize : Name → Option Name) (c : ModelsConfig)

/-- `get_model_info`, with the frames that the interpreter has left. -/
def getModelInfo : Nat → Option Name → Except InfoError ModelInfo
  | 0, _ => .error .recursionError
  | frames + 1, override =>
    match c.named override with
    | some (pid, model, provider) =>
      match provider.getModelProviderType normalize model with
      | none => .error .valueError
      | some type => .ok ⟨pid, model, provider.limitOf model, provider.name, some type⟩
    | none =>
      if (c.getDefaultModel.bind splitColon).isSome then getModelInfo frames c.getDefaultModel
      else .ok {}

/-- The provider that lists a plain model name. -/
def listing (override : Option Name) : Option Name := do
  let name ← override.filter (· ≠ [])
  let (pid, _) ← c.providers.find? fun (_, provider) => provider.models.contains name
  return modelKey pid name

def resolveModelOverride (override : Option Name) : Option Name :=
  if (override.bind splitColon).isSome then override
  else (c.listing override).or (c.getDefaultModel.filter fun d => (splitColon d).isSome)

def resolveProviderConfig (resolved : Name) : Option (Name × Name × Provider) :=
  (c.named (some resolved)).filter fun (_, model, provider) =>
    provider.models.contains model && !provider.apiKey.isEmpty && provider.baseUrl.isSome

/-- The model that `create_llm` calls. -/
def createLlm (override : Option Name) : Option (Name × Name × Provider) :=
  (c.resolveModelOverride override).bind c.resolveProviderConfig

/-- The info ends, and both limits are the one of the model that is called. -/
def LimitsDescribe (override : Option Name) : Prop :=
  ∃ frames info, c.getModelInfo normalize frames override = .ok info ∧
    info.maxContextTokens = c.getMaxContextTokens override ∧
    ∀ pid model provider, c.createLlm override = some (pid, model, provider) →
      info.providerId = pid ∧ info.modelName = model ∧
        c.getMaxContextTokens override = provider.limitOf model

/-! ## When they agree -/

/-- The types of the model that is described are known. -/
def KnownType (provider : Provider) (model : Name) : Prop :=
  ∀ entry, provider.modelsConfig.get? model = some entry → ∀ type, entry.providerType = some type →
    normalize type ≠ none

/-- An override that names a provider: its entry has a limit or the provider
none of its own; without an entry, the provider has one or the provider of the
default model none. -/
def NamedAgrees (provider : Provider) (model : Name) : Prop :=
  match provider.modelsConfig.get? model with
  | some entry => entry.maxContextTokens = none →
      provider.maxContextTokens.getD defaultMaxContextTokens = defaultMaxContextTokens
  | none => provider.maxContextTokens = none → c.defaultProviderLimit = defaultMaxContextTokens

def LimitsAgree (override : Option Name) : Prop :=
  match c.named override, c.getDefaultModel.bind splitColon with
  | some (_, model, provider), _ => KnownType normalize provider model ∧ NamedAgrees c provider model
  | none, none => ∀ key, (override.bind splitColon) = none → c.listing override = some key →
      c.resolveProviderConfig key = none
  | none, some _ => ∃ pid model provider, c.named c.getDefaultModel = some (pid, model, provider) ∧
      KnownType normalize provider model ∧
      provider.limitOf model = provider.maxContextTokens.getD defaultMaxContextTokens ∧
      ∀ key, (override.bind splitColon) = none → c.listing override = some key →
        ∀ p m q, c.resolveProviderConfig key = some (p, m, q) → p = pid ∧ m = model

/-! ## What each function returns -/

variable {normalize c} {override key : Option Name} {pid model p m : Name} {provider q : Provider}

lemma split_of_named (h : c.named override = some (pid, model, provider)) :
    override.bind splitColon = some (pid, model) ∧ c.providers.get? pid = some provider := by
  simp only [named, bind_eq_bind, bind_eq_some_iff, Option.pure_def,
    some.injEq, Prod.mk.injEq, Prod.exists] at h
  obtain ⟨_, _, hsplit, _, hget, rfl, rfl, rfl⟩ := h
  exact ⟨bind_eq_some_iff.2 hsplit, hget⟩

lemma named_of_config {resolved : Name} {called : Name × Name × Provider}
    (h : c.resolveProviderConfig resolved = some called) : c.named (some resolved) = some called :=
  (filter_eq_some_iff.1 h).1

lemma typeKnown_iff : KnownType normalize provider model ↔
    ∃ type, provider.getModelProviderType normalize model = some type := by
  unfold KnownType Provider.getModelProviderType
  rcases provider.modelsConfig.get? model with _ | entry
  · simp
  rcases htype : entry.providerType with _ | type <;>
    simp [ne_none_iff_exists', htype]

lemma info_named {frames : Nat} {info : ModelInfo}
    (h : c.named override = some (pid, model, provider)) :
    c.getModelInfo normalize (frames + 1) override = .ok info ↔
      ∃ type, provider.getModelProviderType normalize model = some type ∧
        info = ⟨pid, model, provider.limitOf model, provider.name, some type⟩ := by
  simp only [getModelInfo, h]
  rcases provider.getModelProviderType normalize model with _ | type
  · simp
  simp [eq_comm]

/-- A default model whose provider was deleted: the call never ends. -/
lemma info_loops (hsplit : (c.getDefaultModel.bind splitColon).isSome)
    (hdefault : c.named c.getDefaultModel = none) (frames : Nat) :
    ∀ override, c.named override = none →
      c.getModelInfo normalize frames override = .error .recursionError := by
  induction frames with
  | zero => exact fun _ _ => rfl
  | succ frames ih =>
    intro override h
    simp only [getModelInfo, h, hsplit, if_true]
    exact ih _ hdefault

lemma info_default {frames : Nat} (h : c.named override = none)
    (hsplit : (c.getDefaultModel.bind splitColon).isSome) :
    c.getModelInfo normalize (frames + 1) override =
      c.getModelInfo normalize frames c.getDefaultModel := by
  simp only [getModelInfo, h, hsplit, if_true]

lemma maxTokens_of_named (h : c.named override = some (pid, model, provider)) :
    provider.limitOf model = c.getMaxContextTokens override ↔ NamedAgrees c provider model := by
  simp only [getMaxContextTokens, h, bind_some, Provider.limitOf, NamedAgrees]
  rcases provider.modelsConfig.get? model with _ | entry
  · rcases provider.maxContextTokens with _ | limit
    · simp [eq_comm]
    simp
  rcases hlimit : entry.maxContextTokens with _ | limit <;> simp [hlimit]

lemma maxTokens_of_unnamed (h : c.named override = none) :
    c.getMaxContextTokens override = c.defaultProviderLimit := by
  simp [getMaxContextTokens, h]

/-- The model of the call: the one that the override names, the one that lists
it, or the default one. -/
lemma createLlm_cases (h : c.createLlm override = some (pid, model, provider)) :
    c.named override = some (pid, model, provider) ∨
    (∃ key, override.bind splitColon = none ∧ c.listing override = some key ∧
      c.resolveProviderConfig key = some (pid, model, provider)) ∨
    c.named c.getDefaultModel = some (pid, model, provider) := by
  obtain ⟨resolved, hresolved, hconfig⟩ := bind_eq_some_iff.1 h
  unfold resolveModelOverride at hresolved
  by_cases hcolon : (override.bind splitColon).isSome
  · rw [if_pos hcolon] at hresolved
    exact .inl (hresolved ▸ named_of_config hconfig)
  rw [if_neg hcolon] at hresolved
  rcases or_eq_some_iff.1 hresolved with hlisted | ⟨-, hdefault⟩
  · exact .inr (.inl ⟨resolved, by simpa using hcolon, hlisted, hconfig⟩)
  exact .inr (.inr ((filter_eq_some_iff.1 hdefault).1 ▸ named_of_config hconfig))

lemma createLlm_of_listing {resolved : Name} (hcolon : override.bind splitColon = none)
    (hlisted : c.listing override = some resolved) :
    c.createLlm override = c.resolveProviderConfig resolved := by
  simp [createLlm, resolveModelOverride, hcolon, hlisted]

/-- A listed name is not empty, and the model it becomes ends with it. -/
lemma model_ne_nil {resolved : Name} (hlisted : c.listing override = some resolved)
    (h : c.named (some resolved) = some (pid, model, provider)) : model ≠ [] := by
  simp only [listing, bind_eq_bind, bind_eq_some_iff, Option.pure_def,
    some.injEq, filter_eq_some_iff, decide_eq_true_eq, Prod.exists] at hlisted
  obtain ⟨name, ⟨-, hne⟩, owner, -, -, rfl⟩ := hlisted
  have hsplit : splitColon (modelKey owner name) = some (pid, model) := (split_of_named h).1
  clear h
  induction owner generalizing pid with
  | nil =>
    obtain ⟨-, rfl⟩ := Prod.mk.inj (some.inj hsplit)
    exact hne
  | cons letter owner ih =>
    simp only [modelKey, cons_append, splitColon] at hsplit
    split at hsplit
    · obtain ⟨-, rfl⟩ := Prod.mk.inj (some.inj hsplit)
      simp
    obtain ⟨⟨_, _⟩, hrest, hpair⟩ := map_eq_some_iff.1 hsplit
    obtain ⟨-, rfl⟩ := Prod.mk.inj hpair
    exact ih hrest

/-! ## The result -/

lemma limitsDescribe_named (h : c.named override = some (pid, model, provider)) :
    c.LimitsDescribe normalize override ↔
      KnownType normalize provider model ∧ NamedAgrees c provider model := by
  rw [typeKnown_iff, ← maxTokens_of_named h]
  constructor
  · rintro ⟨_ | _, _, hinfo, hmax, -⟩
    · cases hinfo
    obtain ⟨type, htype, rfl⟩ := (info_named h).1 hinfo
    exact ⟨⟨type, htype⟩, hmax⟩
  rintro ⟨⟨type, htype⟩, hmax⟩
  refine ⟨1, _, (info_named h).2 ⟨type, htype, rfl⟩, hmax, fun p m q hcalled => ?_⟩
  have hcolon : (override.bind splitColon).isSome := by rw [(split_of_named h).1]; rfl
  have hq : c.named override = some (p, m, q) := by
    obtain ⟨_, hresolved, hconfig⟩ := bind_eq_some_iff.1 hcalled
    rw [resolveModelOverride, if_pos hcolon] at hresolved
    exact hresolved ▸ named_of_config hconfig
  rw [h] at hq
  cases hq
  exact ⟨rfl, rfl, hmax.symm⟩

lemma limitsDescribe_empty (h : c.named override = none)
    (hdefault : c.getDefaultModel.bind splitColon = none) :
    c.LimitsDescribe normalize override ↔ ∀ key, override.bind splitColon = none →
      c.listing override = some key → c.resolveProviderConfig key = none := by
  have hnone : c.named c.getDefaultModel = none := by simp [named, hdefault]
  have hmax : c.getMaxContextTokens override = defaultMaxContextTokens := by
    simp [maxTokens_of_unnamed h, defaultProviderLimit, hnone]
  constructor
  · rintro ⟨_ | _, _, hinfo, -, hcalled⟩ key hcolon hlisted
    · cases hinfo
    simp only [getModelInfo, h, hdefault] at hinfo
    cases hinfo
    by_contra hsome
    obtain ⟨⟨p, m, q⟩, hconfig⟩ := ne_none_iff_exists'.1 hsome
    obtain ⟨-, hm, -⟩ := hcalled p m q (createLlm_of_listing hcolon hlisted ▸ hconfig)
    exact model_ne_nil hlisted (named_of_config hconfig) hm.symm
  intro hlisted
  refine ⟨1, {}, by simp [getModelInfo, h, hdefault], hmax.symm, fun p m q hcalled => ?_⟩
  rcases createLlm_cases hcalled with hp | ⟨key, hcolon, hkey, hconfig⟩ | hd
  · rw [h] at hp; cases hp
  · rw [hlisted key hcolon hkey] at hconfig; cases hconfig
  rw [hnone] at hd; cases hd

lemma limitsDescribe_default (h : c.named override = none)
    (hd : c.named c.getDefaultModel = some (pid, model, provider)) :
    c.LimitsDescribe normalize override ↔ KnownType normalize provider model ∧
      provider.limitOf model = provider.maxContextTokens.getD defaultMaxContextTokens ∧
      ∀ key, override.bind splitColon = none → c.listing override = some key →
        ∀ p m q, c.resolveProviderConfig key = some (p, m, q) → p = pid ∧ m = model := by
  have hsplit : (c.getDefaultModel.bind splitColon).isSome := by rw [(split_of_named hd).1]; rfl
  have hmax : c.getMaxContextTokens override =
      provider.maxContextTokens.getD defaultMaxContextTokens := by
    simp [maxTokens_of_unnamed h, defaultProviderLimit, hd]
  rw [typeKnown_iff, ← hmax]
  constructor
  · rintro ⟨_ | _ | _, _, hinfo, hlimit, hcalled⟩
    · cases hinfo
    · rw [info_default h hsplit] at hinfo; cases hinfo
    rw [info_default h hsplit] at hinfo
    obtain ⟨type, htype, rfl⟩ := (info_named hd).1 hinfo
    refine ⟨⟨type, htype⟩, hlimit, fun key hcolon hlisted p m q hconfig => ?_⟩
    obtain ⟨hp, hm, -⟩ := hcalled p m q (createLlm_of_listing hcolon hlisted ▸ hconfig)
    exact ⟨hp.symm, hm.symm⟩
  rintro ⟨⟨type, htype⟩, hlimit, hlisted⟩
  refine ⟨2, _, (info_default h hsplit).trans ((info_named hd).2 ⟨type, htype, rfl⟩), hlimit,
    fun p m q hcalled => ?_⟩
  rcases createLlm_cases hcalled with hp | ⟨key, hcolon, hkey, hconfig⟩ | hq
  · rw [h] at hp; cases hp
  · obtain ⟨rfl, rfl⟩ := hlisted key hcolon hkey p m q hconfig
    have hget := (split_of_named (named_of_config hconfig)).2
    rw [(split_of_named hd).2] at hget
    cases hget
    exact ⟨rfl, rfl, hlimit.symm⟩
  rw [hd] at hq
  cases hq
  exact ⟨rfl, rfl, hlimit.symm⟩

/-- The main agent names a provider that was deleted. -/
def deletedDefault : ModelsConfig :=
  { providers := [("b".toList, { models := ["m".toList] })]
    mainModel := some "a:m".toList }

end ModelsConfig
end DeterminFlow.Context
