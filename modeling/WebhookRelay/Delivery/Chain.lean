import Mathlib.Data.List.Range
import WebhookRelay.Delivery.Course

/-!
# Chains of attempts

A chain runs one attempt after the other until an attempt is not scheduled again. Its
trace is the list of its attempts' acts: requests that are retried, each with its row, and
then an attempt that ends the chain.

## Main results

* `chain_law` — the trace, the countdowns and the final row of a chain that nothing keeps
  from its requests.
* `runChain_audit` — a chain adds the rows and requests of its trace to the store.
-/

namespace WebhookRelay

open Interleaving Program

/-! ## From courses to stores -/

/-- A run against the database takes the course that the row and the time determine. -/
theorem course_moment {α : Type} (outside : Outside) (s : Store) (p : Delivery α) :
    course outside s.moment p =
      ⟨acts (p.exec database outside s).events, (p.exec database outside s).store.moment,
        (p.exec database outside s).value⟩ := by
  rw [course, exec_project (H := database) (K := moments) (Moment.respond_moment outside) p s]

/-- The audit rows among the performed operations. -/
def rowsOf (events : List (Event relay)) : List WebhookDeliveryAttempt :=
  events.filterMap fun
    | ⟨.createAttempt attempt, _⟩ => some attempt
    | _ => none

/-- The requests among the performed operations. -/
def requestsOf (events : List (Event relay)) : List Request :=
  events.filterMap fun
    | ⟨.post request, _⟩ => some request
    | _ => none

theorem mem_rowsOf {events : List (Event relay)} {row : WebhookDeliveryAttempt}
    (h : row ∈ rowsOf events) : ∃ ev ∈ events, ev.op = .createAttempt row := by
  obtain ⟨ev, hev, hrow⟩ := List.mem_filterMap.mp h
  refine ⟨ev, hev, ?_⟩
  obtain ⟨op, answer⟩ := ev
  cases op with
  | createAttempt row' => exact congrArg Op.createAttempt (Option.some.inj hrow)
  | _ => cases hrow

theorem mem_requestsOf {events : List (Event relay)} {request : Request}
    (h : request ∈ requestsOf events) : ∃ ev ∈ events, ev.op = .post request := by
  obtain ⟨ev, hev, hrequest⟩ := List.mem_filterMap.mp h
  refine ⟨ev, hev, ?_⟩
  obtain ⟨op, answer⟩ := ev
  cases op with
  | post request' => exact congrArg Op.post (Option.some.inj hrequest)
  | _ => cases hrequest

theorem respond_audit (outside : Outside) (op : Op) (s : Store) :
    (respond outside op s).2.attempts =
        s.attempts ++ rowsOf [⟨op, (respond outside op s).1⟩] ∧
      (respond outside op s).2.sent =
        s.sent ++ requestsOf [⟨op, (respond outside op s).1⟩] := by
  cases op with
  | setHalfOpen => by_cases h : s.endpoint.circuitState = .open <;>
      simp [respond, rowsOf, requestsOf, h]
  | createAttempt attempt => exact ⟨rfl, (List.append_nil _).symm⟩
  | post request => exact ⟨(List.append_nil _).symm, rfl⟩
  | _ => exact ⟨(List.append_nil _).symm, (List.append_nil _).symm⟩

/-- The audit trail and the requests sent grow by what was performed. -/
theorem exec_audit {α : Type} (outside : Outside) (s : Store) (p : Delivery α) :
    (p.exec database outside s).store.attempts =
        s.attempts ++ rowsOf (p.exec database outside s).events ∧
      (p.exec database outside s).store.sent =
        s.sent ++ requestsOf (p.exec database outside s).events := by
  induction p generalizing s with
  | ret value => simp [rowsOf, requestsOf]
  | call op rest ih =>
    obtain ⟨hrows, hrequests⟩ := ih (database outside op s).1 (database outside op s).2
    have hfirst := respond_audit outside op s
    have hcons : ∀ (ev : Event relay) (evs : List (Event relay)),
        rowsOf (ev :: evs) = rowsOf [ev] ++ rowsOf evs ∧
          requestsOf (ev :: evs) = requestsOf [ev] ++ requestsOf evs := fun ev evs =>
      ⟨List.filterMap_append (l := [ev]), List.filterMap_append (l := [ev])⟩
    rw [exec_call, hrows, hrequests, (hcons _ _).1, (hcons _ _).2, ← List.append_assoc,
      ← List.append_assoc]
    exact ⟨congrArg (· ++ _) hfirst.1, congrArg (· ++ _) hfirst.2⟩

/-! ## Unfolding a chain -/

section Unfold

variable {attempt : Nat → Delivery TaskEnd} {env : Nat → Surroundings} {retries : Nat} {s : Store}

/-- The run of one attempt of a chain. -/
def attemptRun (attempt : Nat → Delivery TaskEnd) (env : Nat → Surroundings) (retries : Nat)
    (s : Store) : Execution relay Store TaskEnd :=
  (attempt retries).exec database (env retries).outside ((env retries).before s)

/-- The moment in which an attempt starts. -/
def Surroundings.momentBefore (env : Surroundings) (s : Store) : Moment :=
  ⟨env.edit s.endpoint, s.clock + env.wait⟩

theorem attemptRun_course {c : Course TaskEnd}
    (h : course (env retries).outside ((env retries).momentBefore s) (attempt retries) = c) :
    acts (attemptRun attempt env retries s).events = c.acts ∧
      (attemptRun attempt env retries s).store.moment = c.moment ∧
      (attemptRun attempt env retries s).value = c.value := by
  rw [← h, show (env retries).momentBefore s = ((env retries).before s).moment from rfl,
    course_moment]
  exact ⟨rfl, rfl, rfl⟩

/-- A retried attempt is followed by the rest of the chain. -/
theorem runChain_retry {next : Nat} {countdown : Int}
    (h : (attemptRun attempt env retries s).value = .retry next countdown) (fuel : Nat) :
    runChain attempt env (fuel + 1) retries s =
      (runChain attempt env fuel next (attemptRun attempt env retries s).store).map fun rest =>
        { rest with
          events := (attemptRun attempt env retries s).events :: rest.events
          countdowns := countdown :: rest.countdowns } := by
  rw [attemptRun] at h
  simp only [runChain, h]
  rfl

/-- Any other attempt ends the chain. -/
theorem runChain_last (h : ∀ next countdown,
    (attemptRun attempt env retries s).value ≠ .retry next countdown) (fuel : Nat) :
    runChain attempt env (fuel + 1) retries s = some
      { store := (attemptRun attempt env retries s).store
        events := [(attemptRun attempt env retries s).events]
        countdowns := []
        finish := (attemptRun attempt env retries s).value } := by
  rw [attemptRun] at h
  simp only [runChain]
  rfl

/-- A chain adds its rows and its requests to what is there. -/
theorem runChain_audit {fuel : Nat} {r : ChainResult}
    (h : runChain attempt env fuel retries s = some r) :
    r.store.attempts = s.attempts ++ rowsOf r.events.flatten ∧
      r.store.sent = s.sent ++ requestsOf r.events.flatten := by
  induction fuel generalizing retries s r with
  | zero => cases h
  | succ fuel ih =>
    obtain ⟨hrows, hsent⟩ := exec_audit (env retries).outside ((env retries).before s)
      (attempt retries)
    by_cases hretry : ∃ next countdown,
        (attemptRun attempt env retries s).value = .retry next countdown
    · obtain ⟨next, countdown, hvalue⟩ := hretry
      rw [runChain_retry hvalue] at h
      obtain ⟨rest, hrest, rfl⟩ := Option.map_eq_some_iff.mp h
      obtain ⟨hrows', hsent'⟩ := ih hrest
      simp only [List.flatten_cons, rowsOf, requestsOf, List.filterMap_append,
        ← List.append_assoc] at *
      exact ⟨hrows'.trans (congrArg (· ++ _) hrows), hsent'.trans (congrArg (· ++ _) hsent)⟩
    · rw [runChain_last (by simpa using hretry)] at h
      obtain rfl := Option.some.inj h
      simpa using ⟨hrows, hsent⟩

end Unfold

/-! ## Chains that get through to their requests -/

/-- Whatever row fits before an edit, the attempt finds one that fits, is enabled and gets
the payload as far as a request, and it meets an outcome the task handles. -/
structure Unhindered (settings : Settings) (job : Job) (env : Nat → Surroundings)
    (fits : WebhookEndpoint → Prop) : Prop where
  edited : ∀ k row, fits row → fits ((env k).edit row)
  enabled : ∀ k row, fits row → ((env k).edit row).enabled
  loads : ∀ k, (env k).outside.keyError = none
  delivers : ∀ k row, fits row → deliverable settings job k ((env k).edit row)
  secret : ∀ k, (env k).outside.secret ≠ .failed
  handled : ∀ k, (env k).outside.outcome.handled

section Chain

variable (lib : Primitives) {settings : Settings} {job : Job} {env : Nat → Surroundings}
  {fits : WebhookEndpoint → Prop} {limit : Nat → Nat} {failure : Nat → Option PyError}

/-- The verdict of each attempt, given the `max_retries` it reads and how an exhausted row of it
would fail to be written. -/
def verdictAt (env : Nat → Surroundings) (limit : Nat → Nat) (failure : Nat → Option PyError)
    (k : Nat) : Verdict :=
  verdict (limit k) k (failure k) (env k).outside.outcome

theorem attemptRun_sends (h : Unhindered settings job env fits)
    (hlimit : ∀ k row, fits row → ((env k).edit row).maxRetries = limit k)
    (hfailure : ∀ k row, fits row → recordError job k ((env k).edit row) = failure k)
    {k : Nat} {s : Store}
    (hs : fits s.endpoint) {row : WebhookEndpoint}
    (hgate : letThrough k ((env k).momentBefore s) = some row) :
    let run := attemptRun (deliverWebhook lib settings job) env k s
    acts run.events = (verdictAt env limit failure k).acts job.correlationId k ∧
      run.store.endpoint = (verdictAt env limit failure k).settle
        row.circuitBreakerFailureThreshold run.store.clock row ∧
      run.value = (verdictAt env limit failure k).finish settings k := by
  have hdeliverable := h.delivers k s.endpoint hs
  simp only [deliverable, Bool.and_eq_true] at hdeliverable
  have hcourse := sends lib (m := (env k).momentBefore s) (h.loads k) (h.enabled k s.endpoint hs)
    hdeliverable.1 hgate hdeliverable.2 (h.secret k) (h.handled k)
  have hthreshold : ((env k).momentBefore s).row.circuitBreakerFailureThreshold =
      row.circuitBreakerFailureThreshold := by
    rcases letThrough_cases hgate with rfl | rfl <;> rfl
  have hmax : ((env k).momentBefore s).row.maxRetries = limit k := hlimit k s.endpoint hs
  have herror : recordError job k ((env k).momentBefore s).row = failure k :=
    hfailure k s.endpoint hs
  rw [hthreshold, hmax, herror] at hcourse
  obtain ⟨hacts, hmoment, hvalue⟩ := attemptRun_course hcourse
  have hrow := congrArg Moment.row hmoment
  have htime := congrArg Moment.time hmoment
  simp only [Store.moment, Verdict.course] at hrow htime
  refine ⟨hacts, ?_, hvalue⟩
  rw [htime]
  exact hrow

/-- Limits that are bounded end a chain within the bound. -/
theorem exists_last (env : Nat → Surroundings) {limit : Nat → Nat}
    (failure : Nat → Option PyError) {bound : Nat} (hbound : ∀ k, limit k ≤ bound) :
    ∃ last, last < max bound 1 ∧ (∀ k < last, verdictAt env limit failure k = .retried) ∧
      verdictAt env limit failure last ≠ .retried := by
  have hstops : verdictAt env limit failure (max bound 1 - 1) ≠ .retried := by
    have hreached : ¬ max bound 1 - 1 + 1 < limit (max bound 1 - 1) := by
      have := hbound (max bound 1 - 1)
      omega
    simp only [verdictAt, verdict, hreached, if_false]
    split
    · exact Verdict.exhaustedUnless_ne_retried _
    · split
      · simp
      · exact Verdict.exhaustedUnless_ne_retried _
  have hends : ∃ k, verdictAt env limit failure k ≠ .retried := ⟨_, hstops⟩
  refine ⟨Nat.find hends, ?_, fun k hk => not_not.mp (Nat.find_min hends hk), Nat.find_spec hends⟩
  have := Nat.find_min' hends hstops
  omega

/-- What an unhindered chain leaves that is let through at attempt `k` and retried up to
attempt `last`. -/
theorem chain_law (h : Unhindered settings job env fits)
    (hlimit : ∀ k row, fits row → ((env k).edit row).maxRetries = limit k)
    (hfailure : ∀ k row, fits row → recordError job k ((env k).edit row) = failure k)
    {last : Nat} (hretry : ∀ k < last, verdictAt env limit failure k = .retried)
    (hlast : verdictAt env limit failure last ≠ .retried) :
    ∀ j k, k + j = last → ∀ s row, fits s.endpoint → fits row →
      letThrough k ((env k).momentBefore s) = some row →
      ∃ r row', (∀ fuel, j < fuel →
          runChain (deliverWebhook lib settings job) env fuel k s = some r) ∧
        r.events.map acts = (List.range' k j).map (Verdict.acts job.correlationId · .retried) ++
          [(verdictAt env limit failure last).acts job.correlationId last] ∧
        r.countdowns = (List.range' k j).map (fun k => backoffSeconds settings (k + 1)) ∧
        r.finish = (verdictAt env limit failure last).finish settings last ∧ fits row' ∧
        r.store.endpoint = (verdictAt env limit failure last).settle
          row'.circuitBreakerFailureThreshold r.store.clock row' := by
  intro j
  induction j with
  | zero =>
    rintro k rfl s row hs hrow hgate
    obtain ⟨hacts, hendpoint, hvalue⟩ := attemptRun_sends lib h hlimit hfailure hs hgate
    let run := attemptRun (deliverWebhook lib settings job) env k s
    have hfinal : ∀ next countdown, run.value ≠ .retry next countdown := by
      intro next countdown
      rw [hvalue]
      cases hv : verdictAt env limit failure k with
      | retried => exact absurd hv hlast
      | _ => simp [Verdict.finish]
    refine ⟨⟨run.store, [run.events], [], run.value⟩, row, fun fuel hfuel => ?_, ?_⟩
    · obtain ⟨fuel, rfl⟩ := Nat.exists_eq_succ_of_ne_zero (Nat.ne_of_gt hfuel)
      exact runChain_last hfinal fuel
    · exact ⟨by simp [run, hacts], by simp, hvalue, hrow, hendpoint⟩
  | succ j ih =>
    intro k hk s row hs hrow hgate
    obtain ⟨hacts, hendpoint, hvalue⟩ := attemptRun_sends lib h hlimit hfailure hs hgate
    rw [hretry k (by omega)] at hacts hendpoint hvalue
    let run := attemptRun (deliverWebhook lib settings job) env k s
    have hnext : fits run.store.endpoint := hendpoint ▸ hrow
    obtain ⟨r, row', hrun, hevents, hcountdowns, hfinish, hrow', hfinal⟩ :=
      ih (k + 1) (by omega) run.store _ hnext (h.edited _ _ hnext) rfl
    refine ⟨{ r with
      events := run.events :: r.events
      countdowns := backoffSeconds settings (k + 1) :: r.countdowns }, row',
      fun fuel hfuel => ?_, ?_, ?_, hfinish, hrow', hfinal⟩
    · obtain ⟨fuel, rfl⟩ := Nat.exists_eq_succ_of_ne_zero (Nat.ne_of_gt (Nat.zero_lt_of_lt hfuel))
      rw [runChain_retry hvalue, hrun fuel (by omega)]
      rfl
    · simp [run, hacts, hevents, List.range'_succ]
    · simp [hcountdowns, List.range'_succ]

end Chain

/-! ## What a trace says about rows and requests -/

/-- The correlation id, the number and the status of the row that an act writes. -/
def Act.written : Act → Option (String × Nat × AttemptStatus)
  | .row correlationId attemptNumber status => some (correlationId, attemptNumber, status)
  | _ => none

theorem written_acts (events : List (Event relay)) :
    (acts events).filterMap Act.written =
      (rowsOf events).map fun row => (row.correlationId, row.attemptNumber, row.status) := by
  induction events with
  | nil => rfl
  | cons ev events ih =>
    obtain ⟨op, answer⟩ := ev
    cases op with
    | getEnabled => rcases answer with e | (_ | row) <;> exact ih
    | createAttempt attempt => exact congrArg (_ :: ·) ih
    | _ => exact ih

theorem count_request_acts (events : List (Event relay)) :
    (acts events).count .request = (requestsOf events).length := by
  induction events with
  | nil => rfl
  | cons ev events ih =>
    obtain ⟨op, answer⟩ := ev
    cases op with
    | getEnabled => rcases answer with e | (_ | row) <;> exact ih
    | post request => exact List.count_cons_self.trans (congrArg (· + 1) ih)
    | _ => exact ih

theorem acts_flatten (events : List (List (Event relay))) :
    acts events.flatten = (events.map acts).flatten := by
  induction events with
  | nil => rfl
  | cons evs events ih => simpa [acts, List.filterMap_append] using ih

end WebhookRelay
