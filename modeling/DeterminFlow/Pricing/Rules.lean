/-
  Pricing.Rules
  **WHICH RULE PRICES A CALL.**

  A rule fits a call by its provider and model, and by its effective window.
  Of the rules that fit, the one with the latest start is taken; then the
  more specific one, then the one with the last id.  Inside the rule the first
  time band that contains the local time gives the multiplier.

  Selection reads timestamps without an offset in the zone of the table,
  whatever zone the rule names.
-/
import Mathlib.Data.Prod.Lex
import DeterminFlow.Pricing.Config

namespace DeterminFlow.Pricing

open Library

section
variable {F : Type} (fmt : PyFormat F) (zones : Zones)

/-! ## Rules that fit -/

def matchesIdentity (rule call : Dict String (PyJson F)) : Bool :=
  let provider := (PyJson.getD call "provider" (.str "")).toText fmt
  let model := (PyJson.getD call "model" (.str "")).toText fmt
  let ruleProvider := (PyJson.getD rule "provider" (.str "*")).toText fmt
  let ruleModel := (PyJson.getD rule "model" (.str "*")).toText fmt
  decide ((ruleProvider = "*" ∨ ruleProvider = provider) ∧ (ruleModel = "*" ∨ ruleModel = model))

def windowEndUtc (tz field : String) (rule : Dict String (PyJson F)) :
    Except PyError (Option Int) :=
  match windowEnd tz field rule with
  | none => .ok none
  | some dt => do return some (← dt.toUtc zones)

def matchesEffectiveWindow (rule : Dict String (PyJson F)) (occurredAt : DateTime)
    (configTz : String) : Except PyError Bool := do
  let occurred ← occurredAt.toUtc zones
  let first ← windowEndUtc zones configTz "effective_from" rule
  if first.any (occurred < ·) then return false
  else
    let last ← windowEndUtc zones configTz "effective_to" rule
    return !last.any (· ≤ occurred)

def epochMicros : Int := 719162 * IsoTime.microsPerDay

/-- `timestamp()`: the seconds since 1970, as the nearest double. -/
def timestamp (zones : Zones) (dt : DateTime) : Rat :=
  Decimal.roundDigits 2 53 (-1074)
    (((dt.instant zones - epochMicros : Int) : Rat) / IsoTime.microsPerSecond)

/-- The keys of `_effective_sort_key`; a rule without a start counts from minus
infinity. -/
abbrev SortKey : Type := WithBot Rat ×ₗ Nat ×ₗ String

def isStar : PyJson F → Bool
  | .str text => text = "*"
  | _ => false

def effectiveSortKey (configTz : String) (rule : Dict String (PyJson F)) : SortKey :=
  let epoch : WithBot Rat :=
    ((windowEnd configTz "effective_from" rule).map (fun dt => (timestamp zones dt : WithBot Rat))).getD ⊥
  let specificity : Nat :=
    (if isStar (PyJson.getD rule "provider" (.str "*")) then 0 else 1)
      + (if isStar (PyJson.getD rule "model" (.str "*")) then 0 else 1)
  toLex (epoch, toLex (specificity, (PyJson.getD rule "id" (.str "")).toText fmt))

def fitsCall (call : Dict String (PyJson F)) (occurredAt : DateTime) (configTz : String)
    (rule : Dict String (PyJson F)) : Except PyError Bool :=
  if matchesIdentity fmt rule call then matchesEffectiveWindow zones rule occurredAt configTz
  else .ok false

def matchingRules (call : Dict String (PyJson F)) (occurredAt : DateTime) (configTz : String) :
    List (PyJson F) → Except PyError (List (Dict String (PyJson F)))
  | [] => .ok []
  | .dict rule :: rules => do
      let fits ← fitsCall fmt zones call occurredAt configTz rule
      let later ← matchingRules call occurredAt configTz rules
      return if fits then rule :: later else later
  | _ :: rules => matchingRules call occurredAt configTz rules

def selectRule (rules : List (PyJson F)) (call : Dict String (PyJson F)) (occurredAt : DateTime)
    (configTz : String) : Except PyError (Option (Dict String (PyJson F))) := do
  let found ← matchingRules fmt zones call occurredAt configTz rules
  -- `max` takes the first of the largest ones
  return found.argmax (effectiveSortKey fmt zones configTz)

/-! ## Time bands -/

def timeOfDay (wall : Int) : Int := wall % IsoTime.microsPerDay

/-- `weekday()` -/
def weekdayOf (wall : Int) : Int := wall / IsoTime.microsPerDay % 7

/-- `_matches_weekday`, for the days that validation lets pass. -/
def matchesWeekday (band : Dict String (PyJson F)) (wall : Int) : Bool :=
  match PyJson.getD band "days" .null with
  | .list days => days.any (fun day => dayOf? day = some (weekdayOf wall))
  | _ => true

def inBand (start finish : Nat) (time : Int) : Bool :=
  if start < finish then decide ((start : Int) ≤ time ∧ time < finish)
  else decide ((start : Int) ≤ time ∨ time < finish)

def bandMultiplier? (wall : Int) : PyJson F → Option (Dict String (PyJson F) × Rat)
  | .dict band =>
    if matchesWeekday band wall = false then none
    else
      match parseClock (PyJson.getD band "start" .null),
        parseClock (PyJson.getD band "end" .null) with
      | some start, some finish =>
        if inBand start finish (timeOfDay wall) then
          (asDecimal fmt (PyJson.getD band "multiplier" .null)).map (fun m => (band, m))
        else none
      | _, _ => none
  | _ => none

def selectTimeBand (rule : Dict String (PyJson F)) (wall : Int) :
    Option (Dict String (PyJson F)) × Rat :=
  match timeBands rule with
  | .list bands =>
    match bands.findSome? (bandMultiplier? fmt wall) with
    | some (band, multiplier) => (some band, multiplier)
    | none => (none, 1)
  | _ => (none, 1)

def rate (rates : Dict String (PyJson F)) (names : List String) : Option Rat :=
  (names.find? rates.has).bind (fun name => asDecimal fmt (PyJson.getD rates name .null))

end
end DeterminFlow.Pricing
