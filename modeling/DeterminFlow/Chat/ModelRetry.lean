/-
  Chat.ModelRetry
  **RETRIES OF A MODEL CALL.**

  Both wrappers try again only after an attempt that showed nothing, so all
  attempts but the last are silent, and the consumer has the chunks and the
  end of the last one.
-/
import Mathlib.Data.List.Basic

namespace DeterminFlow.Chat.ModelRetry

open List

/-! ## The wrapped call -/

/-- How an attempt ends. -/
inductive Ending where
  | completed
  /-- One of `PROVIDER_BAD_REQUEST_ERRORS`. -/
  | badRequest (error : String)
  | validation (error : String)
  /-- Any other `Exception`. -/
  | failed (error : String)
  /-- What is no `Exception`: a cancellation, the consumer that stops. -/
  | aborted (error : String)
  deriving DecidableEq

structure Attempt where
  chunks : List String
  ending : Ending
  deriving DecidableEq

/-- The two methods that are wrapped. -/
inductive Method where
  | ainvoke
  | astream
  deriving DecidableEq

/-- What the consumer gets in the end. -/
inductive End where
  | returned
  | raised (error : String)
  | malformedResponse (error : String)
  deriving DecidableEq

/-- The except branches; nothing where the attempt may be repeated. -/
def Method.ends : Method → Attempt → Option End
  | _, ⟨_, .completed⟩ => some .returned
  | _, ⟨_, .badRequest error⟩ => some (.raised error)
  | _, ⟨_, .aborted error⟩ => some (.raised error)
  | .astream, ⟨_, .validation error⟩ => some (.malformedResponse error)
  | .ainvoke, ⟨chunks, .validation error⟩ => if chunks = [] then none else some (.raised error)
  | _, ⟨chunks, .failed error⟩ => if chunks = [] then none else some (.raised error)

/-- The error of the last attempt. -/
def Attempt.exhausted (a : Attempt) : End :=
  match a.ending with
  | .completed => .returned
  | .badRequest error | .validation error | .failed error | .aborted error => .raised error

structure RetryConfig where
  maxRetries : Int := 3
  delays : List Int := [5, 15, 30]
  deriving DecidableEq

/-- `delays`, filled up with its last value. -/
def RetryConfig.padded (cfg : RetryConfig) : List Int :=
  cfg.delays ++ replicate (cfg.maxRetries.toNat - cfg.delays.length) (cfg.delays.getLastD 30)

/-- What the consumer saw, each chunk with its attempt. -/
structure Seen where
  chunks : List (Nat × String)
  attempts : Nat
  slept : List Int
  ending : End
  deriving DecidableEq

section
variable (method : Method) (call : Nat → Attempt)

/-- The loop over `attempt`, with the retries that are left. -/
def attemptLoop (delays : List Int) : (left attempt : Nat) → Seen
  | 0, attempt =>
    ⟨(call attempt).chunks.map (attempt, ·), attempt + 1, [],
      (method.ends (call attempt)).getD (call attempt).exhausted⟩
  | left + 1, attempt =>
    let chunks := (call attempt).chunks.map (attempt, ·)
    match method.ends (call attempt), delays[attempt]? with
    | some ending, _ => ⟨chunks, attempt + 1, [], ending⟩
    | none, none => ⟨chunks, attempt + 1, [], .raised "list index out of range"⟩
    | none, some delay =>
      let later := attemptLoop delays left (attempt + 1)
      { later with chunks := chunks ++ later.chunks, slept := delay :: later.slept }

/-- `_wrap_llm_with_retry`; without retries the call stays as it is. -/
def wrapLlmWithRetry (cfg : RetryConfig) : Seen :=
  if cfg.maxRetries ≤ 0 then
    ⟨(call 0).chunks.map (0, ·), 1, [], (call 0).exhausted⟩
  else attemptLoop method call cfg.padded cfg.maxRetries.toNat 0

end

/-! ## One attempt -/

variable {method : Method} {call : Nat → Attempt}

lemma silent_of_again {a : Attempt} (h : method.ends a = none) :
    a.chunks = [] ∧ a.ending ≠ .completed ∧ ∀ error, a.ending ≠ .badRequest error := by
  obtain ⟨chunks, ending⟩ := a
  cases ending <;> cases method <;> simp_all [Method.ends]

lemma returned_iff {a : Attempt} {ending : End} (h : method.ends a = some ending) :
    ending = .returned ↔ a.ending = .completed := by
  obtain ⟨_, attemptEnding⟩ := a
  cases attemptEnding <;> cases method <;> simp_all [Method.ends]
  all_goals obtain ⟨-, rfl⟩ := h; simp

lemma exhausted_iff {a : Attempt} : a.exhausted = .returned ↔ a.ending = .completed := by
  obtain ⟨_, ending⟩ := a
  cases ending <;> simp [Attempt.exhausted]

lemma length_padded (cfg : RetryConfig) : cfg.maxRetries.toNat ≤ cfg.padded.length := by
  simp only [RetryConfig.padded, length_append, length_replicate]
  omega

/-! ## All attempts -/

/-- **The consumer has the last attempt**, and the others were silent. -/
structure LastAttempt (call : Nat → Attempt) (first last : Nat) (seen : Seen) : Prop where
  attempts : seen.attempts = last + 1
  chunks : seen.chunks = (call last).chunks.map (last, ·)
  returned : seen.ending = .returned ↔ (call last).ending = .completed
  silent : ∀ k, first ≤ k → k < last → (call k).chunks = [] ∧ (call k).ending ≠ .completed ∧
    ∀ error, (call k).ending ≠ .badRequest error

lemma attemptLoop_last {delays : List Int} (left attempt : Nat)
    (hdelays : attempt + left ≤ delays.length) : ∃ last, attempt ≤ last ∧ last ≤ attempt + left ∧
      LastAttempt call attempt last (attemptLoop method call delays left attempt) := by
  induction left generalizing attempt with
  | zero =>
    refine ⟨attempt, by omega, by omega, rfl, rfl, ?_, by omega⟩
    cases hends : method.ends (call attempt) with
    | none => simp only [attemptLoop, hends, Option.getD_none, exhausted_iff]
    | some ending => simpa only [attemptLoop, hends, Option.getD_some] using returned_iff hends
  | succ left ih =>
    unfold attemptLoop
    cases hends : method.ends (call attempt) with
    | some ending => exact ⟨attempt, by omega, by omega, rfl, rfl, returned_iff hends, by omega⟩
    | none =>
      obtain ⟨last, _, _, h⟩ := ih (attempt + 1) (by omega)
      have hsilent := silent_of_again hends
      rw [getElem?_eq_getElem (by omega : attempt < delays.length)]
      refine ⟨last, by omega, by omega, h.attempts, ?_, h.returned, fun k hk hklast => ?_⟩
      · simp only [hsilent.1, map_nil, nil_append]
        exact h.chunks
      rcases Nat.eq_or_lt_of_le hk with rfl | hlt
      · exact hsilent
      exact h.silent k hlt hklast

lemma wrapLlmWithRetry_last (method : Method) (call : Nat → Attempt) (cfg : RetryConfig) :
    ∃ last ≤ (max cfg.maxRetries 0).toNat,
      LastAttempt call 0 last (wrapLlmWithRetry method call cfg) := by
  unfold wrapLlmWithRetry
  split
  · exact ⟨0, by omega, rfl, rfl, exhausted_iff, by omega⟩
  obtain ⟨last, -, _, h⟩ := @attemptLoop_last method call cfg.padded cfg.maxRetries.toNat 0
    (by have := length_padded cfg; omega)
  exact ⟨last, by omega, h⟩

/-- **No two attempts are joined, no bad request is repeated, and a failure
of all attempts reaches the consumer.** -/
theorem wrapped_call (method : Method) (call : Nat → Attempt) (cfg : RetryConfig) : let seen :=wrapLlmWithRetry method call cfg
    (∃ k, seen.chunks = (call k).chunks.map (k, ·) ∧
      ∀ j < seen.attempts, (call j).chunks ≠ [] → j = k) ∧
    (∀ j < seen.attempts, ∀ error, (call j).ending = .badRequest error →
      seen.attempts = j + 1) ∧
    (seen.attempts : Int) ≤ max cfg.maxRetries 0 + 1 ∧
    ((∀ j < seen.attempts, (call j).ending ≠ .completed) → seen.ending ≠ .returned) := by
  obtain ⟨last, _, h⟩ := wrapLlmWithRetry_last method call cfg
  have hlater : ∀ j < (wrapLlmWithRetry method call cfg).attempts, j ≠ last → j < last := by
    intro j hj hne
    rw [h.attempts] at hj
    omega
  refine ⟨⟨last, h.chunks, fun j hj hchunks => ?_⟩, fun j hj error hbad => ?_, ?_, fun hall => ?_⟩
  · by_contra hne
    exact hchunks (h.silent j (by omega) (hlater j hj hne)).1
  · rw [h.attempts]
    by_contra hne
    exact (h.silent j (by omega) (hlater j hj (by omega))).2.2 error hbad
  · rw [h.attempts]
    omega
  rw [Ne, h.returned]
  exact hall last (by rw [h.attempts]; omega)

end DeterminFlow.Chat.ModelRetry
