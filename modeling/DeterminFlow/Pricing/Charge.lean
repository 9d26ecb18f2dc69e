/-
  Pricing.Charge
  **THE PRICE OF A CALL.**

  `_price_call` refuses a call whose usage is incomplete, whose timestamp or
  tokens cannot be read, whose counters contradict each other, or for which no
  rule or no rate is there; the others it charges in four parts.  Cached
  tokens are counted inside the prompt, and reasoning tokens inside the
  completion, so these are taken out of the part that holds them.

  The rounding of decimal arithmetic is a parameter: the exact one, or the one
  of a decimal context.
-/
import DeterminFlow.Library.Outcome
import DeterminFlow.Pricing.Rules

namespace DeterminFlow.Pricing

open Library

/-- What the result of an operation becomes, given its exact value.  A result
can be rounded again. -/
structure Arithmetic where
  round : Rat → Except PyError Rat
  again : ∀ {q r}, round q = .ok r → Outcome.Returns (round r)

namespace Arithmetic

def exact : Arithmetic where
  round q := .ok q
  again _ := Outcome.returns_ok _

def contextRound (ctx : Decimal.Context) (q : Rat) : Except PyError Rat :=
  match ctx.round q with
  | some r => .ok r
  | none => .error .decimalOverflow

lemma contextRound_eq_ok_iff {ctx : Decimal.Context} {q r : Rat} :
    contextRound ctx q = .ok r ↔ ctx.round q = some r := by
  unfold contextRound
  cases ctx.round q with
  | none => exact iff_of_false (fun h => by cases h) (fun h => by cases h)
  | some =>
    constructor
    · intro h
      exact congrArg some (Except.ok.inj h)
    intro h
    exact congrArg Except.ok (Option.some.inj h)

def ofContext (ctx : Decimal.Context) : Arithmetic where
  round := contextRound ctx
  again h := by
    obtain ⟨r, hr⟩ := Option.isSome_iff_exists.1 (Decimal.Context.round_again (contextRound_eq_ok_iff.1 h))
    exact ⟨r, contextRound_eq_ok_iff.2 hr⟩

/-- The arithmetic of `decimal` as a program finds it. -/
def standard : Arithmetic := ofContext Decimal.Context.default

end Arithmetic

/-! ## Rows -/

/-- The rule as a priced row shows it; the multiplier is the number that its
text writes. -/
structure RuleSnapshot (F : Type) where
  ruleId : String
  provider : String
  model : String
  effectiveFrom : PyJson F
  effectiveTo : PyJson F
  timezone : String
  rates : Dict String (PyJson F)
  timeBand : Option (Dict String (PyJson F))
  multiplier : Rat

/-- The `cost` of a row, with the numbers that its texts write. -/
inductive Cost where
  | unpriced (reason : String) (details : List (String × List String))
  | priced (amount prompt cachedPrompt completion reasoning : Rat)
  deriving DecidableEq

/-- `cost["amount"]` -/
def Cost.amount : Cost → Rat
  | .unpriced _ _ => 0
  | .priced amount _ _ _ _ => amount

/-- `cost_status == "priced"` -/
def Cost.isPriced : Cost → Bool
  | .unpriced _ _ => false
  | .priced _ _ _ _ _ => true

structure Row (F : Type) where
  /-- The fields of the call that are not written. -/
  fields : Dict String (PyJson F)
  currency : String
  cost : Cost
  snapshot : Option (RuleSnapshot F) := none
  /-- `usage_pricing_status` -/
  legacyInferred : Bool := false

def writtenFields : List String := ["cost_status", "currency", "cost", "pricing_snapshot"]

section
variable {F : Type} (fmt : PyFormat F) (zones : Zones) (arith : Arithmetic)

def otherFields (call : Dict String (PyJson F)) : Dict String (PyJson F) :=
  call.filter (fun entry => entry.1 ∉ writtenFields)

def unpricedCall (call : Dict String (PyJson F)) (currency reason : String)
    (details : List (String × List String)) : Row F where
  fields := otherFields call
  currency := currency
  cost := .unpriced reason details

/-! ## Usage -/

def tokenField (call : Dict String (PyJson F)) (field : String) : Option Nat :=
  asTokenInt fmt (PyJson.getD call field .null)

def optionalTokenField (call : Dict String (PyJson F)) (field : String) : Option Nat :=
  asTokenInt fmt (PyJson.getD call field (.int 0))

def legacyUsageCanBeInferred (call : Dict String (PyJson F)) : Bool :=
  match tokenField fmt call "prompt_tokens", tokenField fmt call "completion_tokens",
    tokenField fmt call "total_tokens" with
  | some prompt, some completion, some total => decide (0 < total ∧ total = prompt + completion)
  | _, _, _ => false

def legacyInferred (call : Dict String (PyJson F)) : Bool :=
  isNull (PyJson.getD call "usage_status" .null) && legacyUsageCanBeInferred fmt call

def isComplete : PyJson F → Bool
  | .str text => text = "complete"
  | _ => false

def textSet (fallback : List (PyJson F)) : PyJson F → List String
  | .list items => sortedSet (items.map (PyJson.toText fmt))
  | _ => sortedSet (fallback.map (PyJson.toText fmt))

def incompleteUsage (call : Dict String (PyJson F)) (currency : String) : Row F :=
  let absent := ["prompt_tokens", "completion_tokens"].filter (fun field => !call.has field)
  unpricedCall call currency "incomplete_usage"
    [("missing_fields", textSet fmt (absent.map .str) (PyJson.getD call "missing_usage_fields" .null)),
      ("usage_errors", textSet fmt [] (PyJson.getD call "usage_errors" .null))]

/-- The counters of a call. -/
structure Tokens where
  prompt : Nat
  completion : Nat
  total : Nat
  cached : Nat
  reasoning : Nat
  deriving DecidableEq

def readTokens (call : Dict String (PyJson F)) : Option Tokens := do
  let prompt ← tokenField fmt call "prompt_tokens"
  let completion ← tokenField fmt call "completion_tokens"
  let total ← tokenField fmt call "total_tokens"
  let cached ← optionalTokenField fmt call "cached_tokens"
  let reasoning ← optionalTokenField fmt call "reasoning_tokens"
  return { prompt, completion, total, cached, reasoning }

def invalidTokenFields (call : Dict String (PyJson F)) : List String :=
  sortedSet (["prompt_tokens", "completion_tokens", "total_tokens"].filter
      (fun field => (tokenField fmt call field).isNone)
    ++ ["cached_tokens", "reasoning_tokens"].filter
      (fun field => (optionalTokenField fmt call field).isNone))

def inconsistentFields (tokens : Tokens) : List String :=
  (if tokens.total ≠ tokens.prompt + tokens.completion then ["total_tokens"] else [])
    ++ (if tokens.prompt < tokens.cached then ["cached_tokens"] else [])
    ++ (if tokens.completion < tokens.reasoning then ["reasoning_tokens"] else [])

/-! ## Charges -/

structure Rates where
  prompt : Option Rat
  cached : Option Rat
  completion : Option Rat
  reasoning : Option Rat
  deriving DecidableEq

def ratesOf (rates : Dict String (PyJson F)) : Rates where
  prompt := rate fmt rates ["prompt", "input"]
  cached := rate fmt rates ["cached_prompt", "cached_input"]
  completion := rate fmt rates ["completion", "output"]
  reasoning := rate fmt rates ["reasoning"]

def missingRates (tokens : Tokens) (rates : Rates) : List String :=
  sortedSet ((if tokens.prompt - tokens.cached ≠ 0 ∧ rates.prompt.isNone then ["prompt"] else [])
    ++ (if tokens.cached ≠ 0 ∧ rates.cached.isNone then ["cached_prompt"] else [])
    ++ (if tokens.completion ≠ 0 ∧ rates.completion.isNone then ["completion"] else []))

/-- The tokens charged in each part; without a rate of their own, reasoning
tokens stay in the completion. -/
structure Parts where
  prompt : Nat
  cached : Nat
  completion : Nat
  reasoning : Nat
  deriving DecidableEq

def partsOf (tokens : Tokens) (rates : Rates) : Parts where
  prompt := tokens.prompt - tokens.cached
  cached := tokens.cached
  completion :=
    if rates.reasoning.isNone then tokens.completion else tokens.completion - tokens.reasoning
  reasoning := if rates.reasoning.isNone then 0 else tokens.reasoning

/-- `units * (rate or Decimal(0)) / unit * multiplier` -/
def partAmount (units : Nat) (rate : Option Rat) (unit : Nat) (multiplier : Rat) :
    Except PyError Rat := do
  let product ← arith.round (units * rate.getD 0)
  let share ← arith.round (product / unit)
  arith.round (share * multiplier)

/-- `_decimal_string`: the number that the text writes. -/
def decimalString (value : Rat) : Except PyError Rat :=
  if value = 0 then .ok 0 else arith.round value

def charge (parts : Parts) (rates : Rates) (unit : Nat) (multiplier : Rat) :
    Except PyError Cost := do
  let prompt ← partAmount arith parts.prompt rates.prompt unit multiplier
  let cached ← partAmount arith parts.cached rates.cached unit multiplier
  let completion ← partAmount arith parts.completion rates.completion unit multiplier
  let reasoning ← partAmount arith parts.reasoning rates.reasoning unit multiplier
  let both ← arith.round (prompt + cached)
  let three ← arith.round (both + completion)
  let amount ← arith.round (three + reasoning)
  return .priced (← decimalString arith amount) (← decimalString arith prompt)
    (← decimalString arith cached) (← decimalString arith completion)
    (← decimalString arith reasoning)

/-! ## One call -/

/-- `rule.get("timezone") or base_snapshot["timezone"]` -/
def ruleTzName (rule : Dict String (PyJson F)) (base : Snapshot) : String :=
  let value := PyJson.getD rule "timezone" .null
  if value.truthy fmt then value.toText fmt else base.timezone

def ratesDict (rule : Dict String (PyJson F)) : Dict String (PyJson F) :=
  match PyJson.getD rule "rates" .null with
  | .dict rates => rates
  | _ => []

def ruleSnapshot (rule : Dict String (PyJson F)) (base : Snapshot)
    (band : Option (Dict String (PyJson F))) (multiplier : Rat) : RuleSnapshot F where
  ruleId := (PyJson.getD rule "id" (.str "")).toText fmt
  provider := (PyJson.getD rule "provider" (.str "*")).toText fmt
  model := (PyJson.getD rule "model" (.str "*")).toText fmt
  effectiveFrom := PyJson.getD rule "effective_from" .null
  effectiveTo := PyJson.getD rule "effective_to" .null
  timezone := ruleTzName fmt rule base
  rates := ratesDict rule
  timeBand := band
  multiplier := multiplier

def chargeCall (config : Config F) (base : Snapshot) (call rule : Dict String (PyJson F))
    (occurredAt : DateTime) (tokens : Tokens) : Except PyError (Row F × Option (RuleSnapshot F)) :=
  match zoneinfo zones (.str (ruleTzName fmt rule base) : PyJson F) with
  | none => .ok (unpricedCall call base.currency "config_invalid" [], none)
  | some tz => do
      let wall ← occurredAt.localTime zones tz
      let band := selectTimeBand fmt rule wall
      let rates := ratesOf fmt (ratesDict rule)
      let multiplier ← decimalString arith band.2
      let shown := ruleSnapshot fmt rule base band.1 multiplier
      if missingRates tokens rates ≠ [] then
        let row := unpricedCall call base.currency "missing_rates"
          [("missing_rates", missingRates tokens rates)]
        return ({ row with snapshot := some shown }, some shown)
      else
        let cost ← charge arith (partsOf tokens rates) rates config.unitTokens band.2
        let row : Row F :=
          { fields := otherFields call
            currency := base.currency
            cost := cost
            snapshot := some shown
            legacyInferred := legacyInferred fmt call }
        return (row, some shown)

def priceCall (config : Config F) (base : Snapshot) (call : Dict String (PyJson F)) :
    Except PyError (Row F × Option (RuleSnapshot F)) :=
  let unpriced (reason : String) (details : List (String × List String)) :=
    (unpricedCall call base.currency reason details, (none : Option (RuleSnapshot F)))
  if isComplete (PyJson.getD call "usage_status" .null) = false ∧ legacyInferred fmt call = false then
    .ok (incompleteUsage fmt call base.currency, none)
  else
    match zoneinfo zones (.str base.timezone : PyJson F) with
    | none => .ok (unpriced "config_invalid" [])
    | some configTz =>
      match parseDatetime configTz (PyJson.getD call "timestamp" .null) with
      | none => .ok (unpriced "missing_or_invalid_timestamp" [])
      | some occurredAt => do
          match ← selectRule fmt zones config.rules call occurredAt configTz with
          | none => return unpriced "no_matching_price_rule" []
          | some rule =>
            match readTokens fmt call with
            | none => return unpriced "invalid_usage" [("invalid_fields", invalidTokenFields fmt call)]
            | some tokens =>
              let inconsistent := inconsistentFields tokens
              if inconsistent ≠ [] then
                return unpriced "invalid_usage_breakdown" [("invalid_fields", inconsistent)]
              else chargeCall fmt zones arith config base call rule occurredAt tokens

/-! ## All calls -/

/-- What `for raw_call in calls` yields. -/
def iterate : PyJson F → Except PyError (List (PyJson F))
  | .list items => .ok items
  | .dict entries => .ok ((Dict.keys entries).map .str)
  | .str text => .ok (text.toList.map (fun c => .str (String.singleton c)))
  | .null | .bool _ | .int _ | .float _ => .error .typeError

def callOf : PyJson F → Dict String (PyJson F)
  | .dict call => call
  | _ => []

def priceRow (config : Config F) (base : Snapshot) (call : Dict String (PyJson F)) :
    Except PyError (Row F × Option (RuleSnapshot F)) :=
  match base.configStatus with
  | .loaded => priceCall fmt zones arith config base call
  | .configInvalid => .ok (unpricedCall call base.currency "config_invalid" [], none)
  | .missing => .ok (unpricedCall call base.currency "pricing_config_missing" [], none)

def priceRows (config : Config F) (base : Snapshot) :
    List (PyJson F) → Except PyError (List (Row F × Option (RuleSnapshot F)))
  | [] => .ok []
  | call :: calls => do
      let row ← priceRow fmt zones arith config base (callOf call)
      let rows ← priceRows config base calls
      return row :: rows

/-- The result of `price_usage_calls`. -/
structure Result (F : Type) where
  calls : List (Row F)
  pricingSnapshot : Snapshot
  matchedRules : List (RuleSnapshot F)

def matchedRules (ruleKey : RuleSnapshot F → String) (shown : List (Option (RuleSnapshot F))) :
    List (RuleSnapshot F) :=
  (shown.reduceOption.foldl (fun found rule => Dict.set found (ruleKey rule) rule) []).map (·.2)

/-- `price_usage_calls`; `ruleKey` is `json.dumps` with sorted keys. -/
def priceUsageCalls (ruleKey : RuleSnapshot F → String) (source : Source F) (calls : PyJson F) :
    Except PyError (Result F) := do
  let (config, snapshot) ← loadPricingConfig fmt zones source
  let rows ← priceRows fmt zones arith config snapshot (← iterate calls)
  return {
    calls := rows.map (·.1)
    pricingSnapshot := snapshot
    matchedRules := matchedRules ruleKey (rows.map (·.2)) }

/-- `sum_cost_amount`, with the amounts that the rows show. -/
def sumCostAmount (rows : List (Row F)) : Except PyError Rat :=
  (rows.filter (fun row => row.cost.isPriced)).foldlM
    (fun amount row => arith.round (amount + row.cost.amount)) 0

end
end DeterminFlow.Pricing
