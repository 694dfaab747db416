import Mathlib.Order.Bounds.Basic
import WebhookRelay.Delivery.Chain

/-!
# The retry law

An unhindered chain makes as many attempts as its outcomes and the `max_retries` it reads
demand: up to the first attempt whose outcome is final or whose number has reached the
limit. Every attempt but the last is retried, and the last one gives its verdict, unless the row
of its exhaustion cannot be written: a snapshot of a payload with a UUID or a `datetime` in it
raises, before the row is there and the failure is counted.

`retry_chain_law_iff` says that this is the only exception to the law.
-/

namespace WebhookRelay

open Interleaving

/-! ## The retried attempts -/

/-- The acts of `count` retried attempts from `start` on. -/
def retriedActs (correlationId : String) (start count : Nat) : List Act :=
  ((List.range' start count).map (Verdict.acts correlationId · .retried)).flatten

theorem retriedActs_succ (correlationId : String) (start count : Nat) :
    retriedActs correlationId start (count + 1) =
      .request :: .row correlationId (start + 1) .retrying ::
        retriedActs correlationId (start + 1) count := by
  simp [retriedActs, List.range'_succ, Verdict.acts]

theorem count_retriedActs (correlationId : String) (start count : Nat) :
    (retriedActs correlationId start count).count .request = count ∧
      (retriedActs correlationId start count).count .recordCircuitSuccess = 0 ∧
        (retriedActs correlationId start count).count .recordCircuitFailure = 0 := by
  induction count generalizing start with
  | zero => simp [retriedActs]
  | succ count ih => simp [retriedActs_succ, ih (start + 1)]

theorem written_retriedActs (correlationId : String) (start count : Nat) :
    (retriedActs correlationId start count).filterMap Act.written =
      (List.range' start count).map fun k => (correlationId, k + 1, .retrying) := by
  induction count generalizing start with
  | zero => simp [retriedActs]
  | succ count ih =>
    rw [retriedActs_succ, List.range'_succ, List.map_cons, ← ih]
    rfl

/-! ## The countdowns -/

theorem backoffSeconds_le (settings : Settings) (attemptNumber : Nat) :
    backoffSeconds settings attemptNumber ≤ settings.retryBackoffMaxSeconds :=
  Int.min_le_right _ _

/-- With a non-negative base the countdowns never decrease. -/
theorem backoffSeconds_mono {settings : Settings} (hbase : 0 ≤ settings.retryBackoffSeconds)
    {i j : Nat} (h : i ≤ j) : backoffSeconds settings i ≤ backoffSeconds settings j := by
  have hpow : (2 : Int) ^ (i - 1) ≤ 2 ^ (j - 1) :=
    pow_le_pow_right₀ (by decide) (Nat.sub_le_sub_right h 1)
  have := Int.mul_le_mul_of_nonneg_left hpow hbase
  simp only [backoffSeconds]
  omega

/-! ## The law -/

/-- What a chain of `n` attempts leaves whose last outcome was `outcome`. -/
structure RetryLaw (settings : Settings) (job : Job) (s : Store) (n : Nat)
    (outcome : PostOutcome) (r : ChainResult) : Prop where
  /-- it sends one request for each attempt -/
  sent : ∃ requests, r.store.sent = s.sent ++ requests ∧ requests.length = n
  /-- it writes one row for each attempt: all are retried but the last -/
  rows : ∃ rows, r.store.attempts = s.attempts ++ rows ∧
    rows.map (fun row => (row.correlationId, row.attemptNumber, row.status)) =
      (List.range (n - 1)).map (fun k => (job.correlationId, k + 1, .retrying)) ++
        [(job.correlationId, n, if outcome.succeeded then .succeeded else .exhausted)]
  /-- it calls `record_circuit_success` once if the last outcome was one -/
  successes : (acts r.events.flatten).count .recordCircuitSuccess =
    if outcome.succeeded then 1 else 0
  /-- it calls `record_circuit_failure` once if it was not -/
  failures : (acts r.events.flatten).count .recordCircuitFailure =
    if outcome.succeeded then 0 else 1
  countdowns_length : r.countdowns.length = n - 1
  countdowns_mono : 0 ≤ settings.retryBackoffSeconds → r.countdowns.Pairwise (· ≤ ·)
  countdowns_le : ∀ countdown ∈ r.countdowns, countdown ≤ settings.retryBackoffMaxSeconds
  /-- Celery never gives up by itself -/
  finish : r.finish = .returned

/-- The attempts, counted from one, that end a chain. -/
def endsChain (env : Nat → Surroundings) (maxRetries : Nat → Nat) (i : Nat) : Prop :=
  1 ≤ i ∧ ((env (i - 1)).outside.outcome.retryable = false ∨ maxRetries i ≤ i)

section Law

variable {settings : Settings} {job : Job} {env : Nat → Surroundings} {maxRetries : Nat → Nat}
  {failure : Nat → Option PyError}

theorem retried_iff (k : Nat) :
    verdictAt env (fun k => maxRetries (k + 1)) failure k = .retried ↔
      ¬ endsChain env maxRetries (k + 1) := by
  have hfinal := Verdict.exhaustedUnless_ne_retried (failure k)
  simp only [verdictAt, verdict, endsChain, Nat.add_sub_cancel]
  split
  · next h =>
    split
    · simp [h]
      omega
    · simp [h, hfinal]
      omega
  · next h =>
    split <;> simp [h, hfinal]

/-- The attempt that ends a chain is the first one that may. -/
theorem isLeast_endsChain {last : Nat}
    (hretry : ∀ k < last, verdictAt env (fun k => maxRetries (k + 1)) failure k = .retried)
    (hlast : verdictAt env (fun k => maxRetries (k + 1)) failure last ≠ .retried) :
    IsLeast {i | endsChain env maxRetries i} (last + 1) := by
  refine ⟨not_not.mp ((retried_iff last).not.mp hlast), fun i hends => ?_⟩
  by_contra hlt
  obtain ⟨k, rfl⟩ : ∃ k, i = k + 1 := Nat.exists_eq_succ_of_ne_zero (Nat.ne_of_gt hends.1)
  exact (retried_iff k).mp (hretry k (by omega)) hends

/-- The verdict that ends a chain depends on the outcome, and on whether the row can be
written. -/
theorem final_verdict {limit : Nat → Nat} {last : Nat}
    (h : verdictAt env limit failure last ≠ .retried) : verdictAt env limit failure last =
      if (env last).outside.outcome.succeeded then .succeeded
      else .exhaustedUnless (failure last) := by
  unfold verdictAt verdict at *
  split
  · next hretryable =>
    have hfailed : (env last).outside.outcome.succeeded = false := by
      by_contra hsucceeded
      have := PostOutcome.not_retryable_of_succeeded (Bool.not_eq_false _ ▸ hsucceeded)
      simp [hretryable] at this
    simp_all
  · rfl

/-- The chain as `chain_law` describes it obeys the retry law exactly if its last attempt succeeds
or can write its row. -/
theorem retryLaw_iff_of_trace {s : Store} {last : Nat} {limit : Nat → Nat} {r : ChainResult}
    (hlast : verdictAt env limit failure last ≠ .retried)
    (haudit : r.store.attempts = s.attempts ++ rowsOf r.events.flatten ∧
      r.store.sent = s.sent ++ requestsOf r.events.flatten)
    (hevents : r.events.map acts =
      (List.range' 0 last).map (Verdict.acts job.correlationId · .retried) ++
        [(verdictAt env limit failure last).acts job.correlationId last])
    (hcountdowns : r.countdowns =
      (List.range' 0 last).map fun k => backoffSeconds settings (k + 1))
    (hfinish : r.finish = (verdictAt env limit failure last).finish settings last) :
    RetryLaw settings job s (last + 1) (env last).outside.outcome r ↔
      (env last).outside.outcome.succeeded ∨ failure last = none := by
  have hacts : acts r.events.flatten = retriedActs job.correlationId 0 last ++
      (verdictAt env limit failure last).acts job.correlationId last := by
    simp [acts_flatten, hevents, retriedActs]
  have hverdict := final_verdict hlast
  obtain ⟨hrequests, hsuccesses, hfailures⟩ := count_retriedActs job.correlationId 0 last
  rw [hverdict] at hacts hfinish
  constructor
  · -- without its row the failure is not counted either
    intro hlaw
    by_contra hnot
    obtain ⟨hfailed, e, he⟩ : (env last).outside.outcome.succeeded = false ∧
        ∃ e, failure last = some e := by
      simpa [not_or, Option.ne_none_iff_exists'] using hnot
    have hcount := hlaw.failures
    rw [hacts, List.count_append, hfailures, hfailed, he] at hcount
    cases hcount
  · intro hcondition
    have hlegal : (if (env last).outside.outcome.succeeded then Verdict.succeeded
        else .exhaustedUnless (failure last)) =
          if (env last).outside.outcome.succeeded then .succeeded else .exhausted := by
      split
      · rfl
      · next hfailed =>
        rw [hcondition.resolve_left hfailed]
        rfl
    have hwritten := written_acts r.events.flatten
    rw [hlegal] at hacts hfinish
    rw [hacts, List.filterMap_append, written_retriedActs] at hwritten
    refine ⟨⟨_, haudit.2, ?_⟩, ⟨_, haudit.1, ?_⟩, ?_, ?_, ?_, ?_, ?_, ?_⟩
    · rw [← count_request_acts, hacts, List.count_append, hrequests]
      split <;> rfl
    · rw [← hwritten, List.range_eq_range', Nat.add_sub_cancel]
      split <;> rfl
    · rw [hacts, List.count_append, hsuccesses]
      split <;> rfl
    · rw [hacts, List.count_append, hfailures]
      split <;> rfl
    · simp [hcountdowns]
    · intro hbase
      rw [hcountdowns, List.pairwise_map]
      exact (List.pairwise_lt_range' ..).imp fun hlt => backoffSeconds_mono hbase (by omega)
    · rw [hcountdowns]
      simp [backoffSeconds_le]
    · rw [hfinish]
      split <;> rfl

/-- For every stream of outcomes and of limits: a chain that gets through to its requests,
starting with one that the breaker lets through, makes as many attempts as the law says, and obeys
the law exactly if its last attempt succeeds or the row of its exhaustion can be written. -/
theorem retry_chain_law_iff (lib : Primitives) (settings : Settings) (job : Job)
    (env : Nat → Surroundings) (fits : WebhookEndpoint → Prop)
    (h : Unhindered settings job env fits) (htrial : ∀ row, fits row → fits row.halfOpened)
    (maxRetries : Nat → Nat)
    (hlimit : ∀ i, 1 ≤ i → ∀ row, fits row → ((env (i - 1)).edit row).maxRetries = maxRetries i)
    (recordErrors : Nat → Option PyError)
    (hrecord : ∀ i, 1 ≤ i → ∀ row, fits row →
      recordError job (i - 1) ((env (i - 1)).edit row) = recordErrors i)
    (bound : Nat) (hbound : ∀ i, maxRetries i ≤ bound) (s : Store) (hs : fits s.endpoint)
    (haccepted : (letThrough 0 ((env 0).momentBefore s)).isSome) :
    ∃ n r, IsLeast {i | endsChain env maxRetries i} n ∧ n ≤ max bound 1 ∧
      (∀ fuel, n ≤ fuel → runChain (deliverWebhook lib settings job) env fuel 0 s = some r) ∧
      (RetryLaw settings job s n (env (n - 1)).outside.outcome r ↔
        (env (n - 1)).outside.outcome.succeeded ∨ recordErrors n = none) := by
  obtain ⟨last, hbelow, hretry, hlast⟩ :=
    exists_last env (fun k => recordErrors (k + 1)) fun k => hbound (k + 1)
  obtain ⟨row, hgate⟩ := Option.isSome_iff_exists.mp haccepted
  have hrow : fits row := by
    rcases letThrough_cases hgate with rfl | rfl
    · exact h.edited 0 _ hs
    · exact htrial _ (h.edited 0 _ hs)
  obtain ⟨r, -, hrun, hevents, hcountdowns, hfinish, -⟩ := chain_law lib h
    (fun k row hrow => hlimit (k + 1) (by omega) row hrow)
    (fun k row hrow => hrecord (k + 1) (by omega) row hrow)
    hretry hlast last 0 (Nat.zero_add last) s row hs hrow hgate
  refine ⟨last + 1, r, isLeast_endsChain hretry hlast, hbelow, hrun, ?_⟩
  exact retryLaw_iff_of_trace hlast (runChain_audit (hrun (last + 1) (Nat.lt_succ_self _)))
    hevents hcountdowns hfinish

end Law

/-- A receiver that is unavailable twice, half a minute apart, and then answers. -/
def unavailableTwice (k : Nat) : Surroundings where
  edit _ := newEndpoint
  wait := 30000000
  outside := { outcome := if k < 2 then .response 503 "" else .response 200 "" }

theorem retry_chain_law_iff_unavailableTwice :
    ∃ n r, IsLeast {i | endsChain unavailableTwice (fun _ => 5) i} n ∧ n ≤ max 5 1 ∧
      (∀ fuel, n ≤ fuel → runChain (deliverWebhook emptyLib {} emptyJob) unavailableTwice fuel 0
        { endpoint := newEndpoint } = some r) ∧
      (RetryLaw {} emptyJob { endpoint := newEndpoint } n
          (unavailableTwice (n - 1)).outside.outcome r ↔
        (unavailableTwice (n - 1)).outside.outcome.succeeded ∨ (none : Option PyError) = none) := by
  have hhandled : ∀ k, (unavailableTwice k).outside.outcome.handled := by
    intro k
    by_cases hk : k < 2 <;> simp [unavailableTwice, hk, PostOutcome.handled]
  exact retry_chain_law_iff emptyLib {} emptyJob unavailableTwice (fun _ => True)
    ⟨fun _ _ _ => trivial, fun _ _ _ => rfl, fun _ => rfl, fun _ _ _ => rfl,
      fun _ => by simp [unavailableTwice], hhandled⟩
    (fun _ _ => trivial) (fun _ => 5) (fun _ _ _ _ => rfl) (fun _ => none) (fun _ _ _ _ => rfl)
    5 (fun _ => le_rfl) _ trivial rfl

/-- An event as Celery restores it: in its metadata the identifier is a UUID, the time a
`datetime`. -/
def stampedPayload : Payload where
  members := [
    ("openedx_events.learning.data.CoursePassingStatusData", .obj [("is_passing", .bool true)]),
    ("event_metadata", .obj [("id", .other "6f1cd1a2-4d07-11ee-be56-0242ac120002"),
      ("time", .other "2024-05-01 12:00:00+00:00")])]
  wellFormed := by decide

def stampedJob : Job where
  event := emptyJob.event
  correlationId := emptyJob.correlationId
  rawPayload _ := stampedPayload

/-- A receiver that rejects every request. -/
def rejecting (_ : Nat) : Surroundings where
  outside := { outcome := .response 400 "" }

/-- If the endpoint keeps snapshots, the exhaustion of such a delivery is neither recorded nor
counted: the request was sent, but the exception of the JSON column ends the task. -/
theorem exhaustion_not_recorded :
    ∃ r, runChain (deliverWebhook emptyLib {} stampedJob) rejecting 1 0
        { endpoint := { newEndpoint with retainPayloadSnapshot := true } } = some r ∧
      r.finish = .raised .typeError ∧ r.store.sent.length = 1 ∧ r.store.attempts = [] ∧
      r.store.endpoint.consecutiveFailures = 0 ∧
      IsLeast {i | endsChain rejecting (fun _ => 5) i} 1 ∧
      ¬ RetryLaw {} stampedJob { endpoint := { newEndpoint with retainPayloadSnapshot := true } } 1
        (rejecting 0).outside.outcome r := by
  refine ⟨_, rfl, rfl, rfl, rfl, rfl, ⟨⟨le_rfl, .inl rfl⟩, fun i hi => hi.1⟩, fun hlaw => ?_⟩
  cases hlaw.finish

end WebhookRelay
