/-
  Pricing.Charges
  **EVERY TOKEN OF A PRICED CALL IS CHARGED ONCE.**

  Cached tokens are counted inside the prompt and reasoning tokens inside the
  completion.  A priced call has its prompt split into the uncached and the
  cached part and its completion into the regular and the reasoning part, so
  that the four parts together are the total; a part that holds tokens has a
  rate of the rule.  With exact arithmetic the amount is the sum of the parts.
-/
import DeterminFlow.Pricing.Charge

namespace DeterminFlow.Pricing

open Library Outcome List Option Except

/-! ## Bills -/

/-- What the parts of a call are charged at. -/
structure Bill where
  parts : Parts
  rates : Rates
  unit : Nat
  multiplier : Rat

/-- The exact price of `units` tokens. -/
def exactPrice (units : Nat) (rate : Option Rat) (unit : Nat) (multiplier : Rat) : Rat :=
  units * rate.getD 0 / unit * multiplier

namespace Bill

variable (b : Bill)

def prompt : Rat := exactPrice b.parts.prompt b.rates.prompt b.unit b.multiplier

def cached : Rat := exactPrice b.parts.cached b.rates.cached b.unit b.multiplier

def completion : Rat := exactPrice b.parts.completion b.rates.completion b.unit b.multiplier

def reasoning : Rat := exactPrice b.parts.reasoning b.rates.reasoning b.unit b.multiplier

end Bill

/-- The parts hold every token of the call once. -/
structure Parts.Cover (parts : Parts) (tokens : Tokens) : Prop where
  prompt : parts.prompt + parts.cached = tokens.prompt
  completion : parts.completion + parts.reasoning = tokens.completion
  cached : parts.cached = tokens.cached
  reasoning : parts.reasoning = tokens.reasoning ∨ parts.reasoning = 0
  total : parts.prompt + parts.cached + parts.completion + parts.reasoning = tokens.total

def NonnegRate (rate : Option Rat) : Prop := ∀ r ∈ rate, 0 ≤ r

/-- No rate is negative, and where a part holds tokens, there is one. -/
structure Rates.Serve (rates : Rates) (parts : Parts) : Prop where
  prompt : parts.prompt ≠ 0 → rates.prompt.isSome
  cached : parts.cached ≠ 0 → rates.cached.isSome
  completion : parts.completion ≠ 0 → rates.completion.isSome
  reasoning : parts.reasoning ≠ 0 → rates.reasoning.isSome
  nonneg : NonnegRate rates.prompt ∧ NonnegRate rates.cached ∧ NonnegRate rates.completion
    ∧ NonnegRate rates.reasoning

section
variable {F : Type} {fmt : PyFormat F} {zones : Zones} {arith : Arithmetic}

/-- The call is charged by the bill. -/
structure Charged (fmt : PyFormat F) (config : Config F) (call : Dict String (PyJson F)) (b : Bill)
    (cost : Cost) : Prop where
  covers : ∃ tokens, readTokens fmt call = some tokens ∧ b.parts.Cover tokens
  serves : b.rates.Serve b.parts
  ofRule : ∃ rule, .dict rule ∈ config.rules ∧ b.rates = ratesOf fmt (ratesDict rule)
  unit : b.unit = config.unitTokens ∧ 0 < b.unit
  multiplier : 0 ≤ b.multiplier
  nonneg : 0 ≤ b.prompt ∧ 0 ≤ b.cached ∧ 0 ≤ b.completion ∧ 0 ≤ b.reasoning
  cost : cost = .priced (b.prompt + b.cached + b.completion + b.reasoning)
    b.prompt b.cached b.completion b.reasoning

def Billed (fmt : PyFormat F) (config : Config F) (call : Dict String (PyJson F)) (cost : Cost) :
    Prop :=
  (cost.isPriced = true ∧ ∃ b, Charged fmt config call b cost) ∨
    (cost.isPriced = false ∧ cost.amount = 0)

/-! ## What pricing a call comes to -/

variable {occurredAt : DateTime} {rule call : Dict String (PyJson F)} {configTz : String}
  {rules : List (PyJson F)} {config : Config F} {base : Snapshot} {tokens : Tokens}
  {out : Row F × Option (RuleSnapshot F)}

lemma mem_of_matchingRules {found : List (Dict String (PyJson F))}
    (h : matchingRules fmt zones call occurredAt configTz rules = .ok found)
    (hrule : rule ∈ found) : .dict rule ∈ rules := by
  induction rules generalizing found with
  | nil =>
    obtain rfl := ok.inj h
    cases hrule
  | cons first rules ih =>
    cases first with
    | dict =>
      rw [matchingRules] at h
      obtain ⟨fits, -, h⟩ := bind_eq_ok_iff.1 h
      obtain ⟨_, hlater, h⟩ := bind_eq_ok_iff.1 h
      have hfound := pure_eq_ok_iff.1 h
      cases fits with
      | true =>
        rw [← hfound] at hrule
        rcases mem_cons.1 hrule with rfl | hrule
        · exact mem_cons_self
        exact mem_cons_of_mem _ (ih hlater hrule)
      | false =>
        rw [← hfound] at hrule
        exact mem_cons_of_mem _ (ih hlater hrule)
    | _ => exact mem_cons_of_mem _ (ih h hrule)

lemma mem_of_selectRule
    (h : selectRule fmt zones rules call occurredAt configTz = .ok (some rule)) :
    .dict rule ∈ rules := by
  obtain ⟨_, hfound, h⟩ := bind_eq_ok_iff.1 h
  exact mem_of_matchingRules hfound (argmax_mem (pure_eq_ok_iff.1 h))

/-- A call that is not refused is charged by a rule of the table. -/
structure Chargeable (fmt : PyFormat F) (arith : Arithmetic) (config : Config F)
    (call rule : Dict String (PyJson F)) (tokens : Tokens) (wall : Int) (cost : Cost) : Prop where
  ofTable : .dict rule ∈ config.rules
  read : readTokens fmt call = some tokens
  consistent : inconsistentFields tokens = []
  rated : missingRates tokens (ratesOf fmt (ratesDict rule)) = []
  charged : charge arith (partsOf tokens (ratesOf fmt (ratesDict rule))) (ratesOf fmt (ratesDict rule))
    config.unitTokens (selectTimeBand fmt rule wall).2 = .ok cost

def IsUnpriced (cost : Cost) : Prop := ∃ reason details, cost = .unpriced reason details

lemma chargeCall_cases (hrule : .dict rule ∈ config.rules)
    (htokens : readTokens fmt call = some tokens) (hconsistent : inconsistentFields tokens = [])
    (h : chargeCall fmt zones arith config base call rule occurredAt tokens = .ok out) :
    IsUnpriced out.1.cost ∨ ∃ wall, Chargeable fmt arith config call rule tokens wall out.1.cost := by
  unfold chargeCall at h
  split at h
  · obtain rfl := ok.inj h
    exact .inl ⟨_, _, rfl⟩
  obtain ⟨wall, -, h⟩ := bind_eq_ok_iff.1 h
  obtain ⟨_, -, h⟩ := bind_eq_ok_iff.1 h
  by_cases hmissing : missingRates tokens (ratesOf fmt (ratesDict rule)) = []
  · rw [if_neg (not_not.2 hmissing)] at h
    obtain ⟨cost, hcost, h⟩ := bind_eq_ok_iff.1 h
    obtain rfl := pure_eq_ok_iff.1 h
    exact .inr ⟨wall, hrule, htokens, hconsistent, hmissing, hcost⟩
  rw [if_pos hmissing] at h
  obtain rfl := pure_eq_ok_iff.1 h
  exact .inl ⟨_, _, rfl⟩

lemma priceCall_cases (h : priceCall fmt zones arith config base call = .ok out) :
    IsUnpriced out.1.cost
      ∨ ∃ rule tokens wall, Chargeable fmt arith config call rule tokens wall out.1.cost := by
  unfold priceCall at h
  split at h
  · obtain rfl := ok.inj h
    exact .inl ⟨_, _, rfl⟩
  split at h
  · obtain rfl := ok.inj h
    exact .inl ⟨_, _, rfl⟩
  split at h
  · obtain rfl := ok.inj h
    exact .inl ⟨_, _, rfl⟩
  obtain ⟨selected, hselected, h⟩ := bind_eq_ok_iff.1 h
  cases selected with
  | none =>
    obtain rfl := pure_eq_ok_iff.1 h
    exact .inl ⟨_, _, rfl⟩
  | some rule =>
    simp only at h
    split at h
    · obtain rfl := pure_eq_ok_iff.1 h
      exact .inl ⟨_, _, rfl⟩
    next tokens htokens =>
    split at h
    · obtain rfl := pure_eq_ok_iff.1 h
      exact .inl ⟨_, _, rfl⟩
    next hconsistent =>
    rcases chargeCall_cases (mem_of_selectRule hselected) htokens (not_not.1 hconsistent) h with
      hunpriced | ⟨wall, hcharge⟩
    · exact .inl hunpriced
    exact .inr ⟨rule, tokens, wall, hcharge⟩

/-! ## Rates and parts -/

lemma asDecimal_nonneg {value : PyJson F} {r : Rat} (h : asDecimal fmt value = some r) : 0 ≤ r := by
  obtain ⟨_, -, h⟩ := bind_eq_some_iff.1 h
  split at h
  · cases h
  next hneg =>
  obtain rfl := some.inj h
  exact not_lt.1 hneg

variable (rates : Dict String (PyJson F)) (units unit : Nat)

lemma rate_nonneg (names : List String) : NonnegRate (rate fmt rates names) := by
  intro _ hr
  obtain ⟨_, -, h⟩ := bind_eq_some_iff.1 hr
  exact asDecimal_nonneg h

lemma multiplier_nonneg (rule : Dict String (PyJson F)) (wall : Int) :
    0 ≤ (selectTimeBand fmt rule wall).2 := by
  unfold selectTimeBand
  split
  · next bands =>
    split
    · next band multiplier hfound =>
      obtain ⟨_, -, h⟩ := exists_of_findSome?_eq_some hfound
      -- the multiplier of a band is read as the rates are
      have hread : ∃ v : PyJson F, asDecimal fmt v = some multiplier := by
        unfold bandMultiplier? at h
        split at h
        · split at h
          · cases h
          split at h
          · split at h
            · obtain ⟨_, hm, hpair⟩ := map_eq_some_iff.1 h
              exact ⟨_, (Prod.mk.inj hpair).2 ▸ hm⟩
            cases h
          cases h
        cases h
      obtain ⟨v, hv⟩ := hread
      exact asDecimal_nonneg hv
    exact zero_le_one
  exact zero_le_one

lemma getD_nonneg {rate : Option Rat} (h : NonnegRate rate) : 0 ≤ rate.getD 0 := by
  cases rate with
  | none => exact le_refl _
  | some r => exact h r rfl

lemma exactPrice_nonneg {rate : Option Rat} {multiplier : Rat} (hrate : NonnegRate rate)
    (hmultiplier : 0 ≤ multiplier) : 0 ≤ exactPrice units rate unit multiplier := by
  have h := getD_nonneg hrate
  unfold exactPrice
  positivity

lemma nil_of_sortedSet {texts : List String} (h : sortedSet texts = []) : texts = [] := by
  have hperm := perm_insertionSort (· ≤ ·) texts.dedup
  unfold sortedSet at h
  rw [h] at hperm
  cases texts with
  | nil => rfl
  | cons t rest =>
    have hmem : t ∈ (t :: rest).dedup := mem_dedup.2 mem_cons_self
    exact absurd (hperm.mem_iff.2 hmem) not_mem_nil

lemma nil_of_ite {c : Prop} [Decidable c] {text : String} (h : (if c then [text] else []) = []) :
    ¬ c := by
  intro hc
  rw [if_pos hc] at h
  cases h

structure Tokens.Consistent (tokens : Tokens) : Prop where
  total : tokens.total = tokens.prompt + tokens.completion
  cached : tokens.cached ≤ tokens.prompt
  reasoning : tokens.reasoning ≤ tokens.completion

lemma consistent_of_nil (h : inconsistentFields tokens = []) : tokens.Consistent := by
  unfold inconsistentFields at h
  obtain ⟨h, hreasoning⟩ := append_eq_nil_iff.1 h
  obtain ⟨htotal, hcached⟩ := append_eq_nil_iff.1 h
  exact ⟨not_not.1 (nil_of_ite htotal), not_lt.1 (nil_of_ite hcached), not_lt.1 (nil_of_ite hreasoning)⟩

lemma partsOf_cover (h : tokens.Consistent) (rates : Rates) :
    (partsOf tokens rates).Cover tokens := by
  obtain ⟨_, _, _⟩ := h
  cases hrate : rates.reasoning with
  | none =>
    constructor <;> simp only [partsOf, hrate, isNone_none, if_true, or_true] <;> omega
  | some =>
    constructor <;>
      simp only [partsOf, hrate, isNone_some, Bool.false_eq_true, if_false, true_or] <;> omega

lemma isSome_of_needed {n : Nat} {rate : Option Rat} {name : String}
    (h : (if n ≠ 0 ∧ rate.isNone then [name] else []) = []) : n ≠ 0 → rate.isSome := by
  intro hn
  have hnone := fun h' => nil_of_ite h ⟨hn, h'⟩
  cases rate with
  | none => exact absurd rfl hnone
  | some => rfl

lemma partsOf_serve (h : missingRates tokens (ratesOf fmt rates) = []) :
    (ratesOf fmt rates).Serve (partsOf tokens (ratesOf fmt rates)) := by
  obtain ⟨h, hcompletion⟩ := append_eq_nil_iff.1 (nil_of_sortedSet h)
  obtain ⟨hprompt, hcached⟩ := append_eq_nil_iff.1 h
  constructor
  · exact isSome_of_needed hprompt
  · exact isSome_of_needed hcached
  · intro hne
    apply isSome_of_needed hcompletion
    -- without tokens in the completion, no part of it holds any
    intro hzero
    apply hne
    show (if _ then tokens.completion else tokens.completion - tokens.reasoning) = 0
    rw [hzero]
    split
    · rfl
    exact Nat.zero_sub _
  · intro hne
    cases hrate : (ratesOf fmt rates).reasoning with
    | none => exact absurd (show (if _ then 0 else tokens.reasoning) = 0 by rw [hrate]; rfl) hne
    | some => rfl
  exact ⟨rate_nonneg _ _, rate_nonneg _ _, rate_nonneg _ _, rate_nonneg _ _⟩

/-! ## Exact arithmetic -/

lemma partAmount_exact (rate : Option Rat) (multiplier : Rat) :
    partAmount .exact units rate unit multiplier = .ok (exactPrice units rate unit multiplier) := rfl

lemma decimalString_exact (value : Rat) : decimalString .exact value = .ok value := by
  unfold decimalString
  split
  · next h => rw [h]
  rfl

lemma charge_exact (parts : Parts) (rates : Rates) (unit : Nat) (multiplier : Rat) :
    let b : Bill := ⟨parts, rates, unit, multiplier⟩
    charge .exact parts rates unit multiplier
      = .ok (.priced (b.prompt + b.cached + b.completion + b.reasoning) b.prompt b.cached
        b.completion b.reasoning) := by
  intro b
  unfold charge
  rw [partAmount_exact, partAmount_exact, partAmount_exact, partAmount_exact]
  show (do
    let amount ← decimalString .exact (b.prompt + b.cached + b.completion + b.reasoning)
    let p ← decimalString .exact b.prompt
    let c ← decimalString .exact b.cached
    let o ← decimalString .exact b.completion
    let r ← decimalString .exact b.reasoning
    return Cost.priced amount p c o r) = _
  simp only [decimalString_exact]
  rfl

lemma Chargeable.exists_bill {wall : Int} {cost : Cost} (hunit : 0 < config.unitTokens)
    (h : Chargeable fmt .exact config call rule tokens wall cost) :
    ∃ b, Charged fmt config call b cost := by
  have hmultiplier := @multiplier_nonneg _ fmt rule wall
  have hserve := partsOf_serve _ h.rated
  obtain ⟨hprompt, hcached, hcompletion, hreasoning⟩ := hserve.nonneg
  refine ⟨⟨_, _, config.unitTokens, _⟩, ⟨tokens, h.read, partsOf_cover (consistent_of_nil h.consistent) _⟩,
    hserve, ⟨rule, h.ofTable, rfl⟩, ⟨rfl, hunit⟩, hmultiplier, ?_, ?_⟩
  · exact ⟨exactPrice_nonneg _ _ hprompt hmultiplier, exactPrice_nonneg _ _ hcached hmultiplier,
      exactPrice_nonneg _ _ hcompletion hmultiplier, exactPrice_nonneg _ _ hreasoning hmultiplier⟩
  exact (ok.inj ((charge_exact _ _ _ _).symm.trans h.charged)).symm

lemma billed_unpriced {cost : Cost} (h : IsUnpriced cost) : Billed fmt config call cost := by
  obtain ⟨_, _, rfl⟩ := h
  exact .inr ⟨rfl, rfl⟩

lemma priceRow_billed (hunit : 0 < config.unitTokens)
    (h : priceRow fmt zones .exact config base call = .ok out) :
    Billed fmt config call out.1.cost := by
  unfold priceRow at h
  split at h
  · rcases priceCall_cases h with hunpriced | ⟨rule, tokens, wall, hcharge⟩
    · exact billed_unpriced hunpriced
    obtain ⟨b, hb⟩ := hcharge.exists_bill hunit
    exact .inl ⟨by rw [hb.cost]; rfl, b, hb⟩
  all_goals
    obtain rfl := ok.inj h
    exact billed_unpriced ⟨_, _, rfl⟩

lemma priceRows_billed {calls : List (PyJson F)} {rows : List (Row F × Option (RuleSnapshot F))}
    (hunit : 0 < config.unitTokens) (h : priceRows fmt zones .exact config base calls = .ok rows) :
    List.Forall₂ (fun call row => Billed fmt config (callOf call) row.cost) calls (rows.map (·.1)) := by
  induction calls generalizing rows with
  | nil =>
    obtain rfl := ok.inj h
    exact .nil
  | cons call calls ih =>
    obtain ⟨row, hrow, h⟩ := bind_eq_ok_iff.1 h
    obtain ⟨_, hlater, h⟩ := bind_eq_ok_iff.1 h
    obtain rfl := pure_eq_ok_iff.1 h
    exact .cons (priceRow_billed hunit hrow) (ih hlater)

lemma defaultUnit_pos : 0 < ({} : Config F).unitTokens := Nat.succ_pos 999999

lemma validate_unit {raw : PyJson F} {out : Config F × List String}
    (h : validatePricingConfig fmt zones raw = .ok out) : 0 < out.1.unitTokens := by
  have hread : ∀ unit : Option Nat, 0 < (unit.filter (0 < ·)).getD 1000000 := by
    intro unit
    cases unit with
    | none => decide
    | some n =>
      by_cases hn : 0 < n
      · rw [filter_some_pos (by simpa using hn)]
        exact hn
      rw [filter_some_neg (by simpa using hn)]
      decide
  cases raw with
  | dict =>
    unfold validatePricingConfig at h
    simp only at h
    split at h
    · obtain ⟨_, -, h⟩ := bind_eq_ok_iff.1 h
      obtain rfl := pure_eq_ok_iff.1 h
      exact hread _
    obtain rfl := ok.inj h
    exact hread _
  | _ => obtain rfl := ok.inj h; exact defaultUnit_pos

lemma loadTable_unit {source : String} {raw : PyJson F} {out : Config F × Snapshot}
    (h : loadTable fmt zones source raw = .ok out) : 0 < out.1.unitTokens := by
  obtain ⟨_, hchecked, h⟩ := bind_eq_ok_iff.1 h
  obtain rfl := pure_eq_ok_iff.1 h
  exact validate_unit hchecked

lemma loadPricingConfig_unit {source : Source F} {out : Config F × Snapshot}
    (h : loadPricingConfig fmt zones source = .ok out) : 0 < out.1.unitTokens := by
  cases source with
  | inline => exact loadTable_unit h
  | file => exact loadTable_unit h
  | _ => obtain rfl := ok.inj h; exact defaultUnit_pos

end

/-! ## A table and a call -/

def plainFormat : PyFormat Empty where
  floatRepr f := nomatch f
  floatTruthy f := nomatch f
  containerStr _ := ""

def twoZones : Zones where
  known key := key = "UTC" || key = "Asia/Shanghai"
  utcoffset key _ := if key = "Asia/Shanghai" then 28800000000 else 0
  fromUtc key _ := if key = "Asia/Shanghai" then 28800000000 else 0

def flatTable : PyJson Empty :=
  .dict [("version", .str "1"), ("rules", .list [.dict [("id", .str "flat"), ("provider", .str "*"),
    ("model", .str "*"), ("rates", .dict [("prompt", .str "1"), ("cached_input", .str "0.5"),
      ("output", .int 2)])]])]

def cachedCall : PyJson Empty :=
  .dict [("usage_status", .str "complete"), ("timestamp", .str "2026-01-01T00:00:00Z"),
    ("prompt_tokens", .int 3000000), ("completion_tokens", .str "1e6"),
    ("total_tokens", .int 4000000), ("cached_tokens", .int 1000000),
    ("reasoning_tokens", .int 400000)]

lemma cachedCall_costs :
    (priceUsageCalls plainFormat twoZones .exact (·.ruleId) (.inline flatTable)
      (.list [cachedCall])).map (fun result => result.calls.map (·.cost))
      = .ok [.priced (9 / 2) 2 (1 / 2) 2 0] := by decide +kernel

end DeterminFlow.Pricing
