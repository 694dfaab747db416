import WebhookRelay.Delivery.Attempt
import WebhookRelay.Model.Celery

/-!
# The course of one attempt

How an attempt goes on depends on the row and the time only, so attempts are run on a
`Moment` and the result carried over to the store. Of its operations five kinds
matter: a lookup that finds no enabled row, requests, audit rows and the two verdicts
given to the breaker.

## Main results

* `sends` — an accepted attempt sends one request, writes one row for it and gives the
  breaker the verdict that belongs to the row.
* `rejected`, `skipped`, `dropped` — the attempts that send nothing.
-/

namespace WebhookRelay

open Interleaving Program

/-! ## What an attempt did -/

/-- The operations of an attempt that others can see. -/
inductive Act where
  | dropped
  | request
  | row (correlationId : String) (attemptNumber : Nat) (status : AttemptStatus)
  | recordCircuitSuccess
  | recordCircuitFailure
  deriving DecidableEq, Repr

/-- The act that an operation is, if it is one. -/
def Act.ofEvent : Event relay → Option Act
  | ⟨.getEnabled, .ok none⟩ => some .dropped
  | ⟨.post _, _⟩ => some .request
  | ⟨.createAttempt attempt, _⟩ =>
    some (.row attempt.correlationId attempt.attemptNumber attempt.status)
  | ⟨.resetCircuit, _⟩ => some .recordCircuitSuccess
  | ⟨.incrementFailures, _⟩ => some .recordCircuitFailure
  | _ => none

def acts (events : List (Event relay)) : List Act := events.filterMap Act.ofEvent

/-! ## The row and the time -/

/-- What the course of an attempt depends on. -/
structure Moment where
  row : WebhookEndpoint
  time : Time

def Store.moment (s : Store) : Moment := ⟨s.endpoint, s.clock⟩

/-- How the database and the network answer in a moment. -/
def Moment.respond (outside : Outside) : (op : Op) → Moment → op.Answer × Moment
  | .getEnabled, m => (if m.row.enabled then outside.load m.row else .ok none, m)
  | .now, m => (m.time, m)
  | .monotonic, m => (m.time, m)
  | .setHalfOpen, m =>
    if m.row.circuitState = .open then (true, { m with row := m.row.halfOpened })
    else (false, m)
  | .resetCircuit, m => ((), { m with row := m.row.reset })
  | .incrementFailures, m => ((), { m with row := m.row.counting (m.row.consecutiveFailures + 1) })
  | .refreshFailures, m => (m.row.consecutiveFailures, m)
  | .openCircuit openedAt, m => ((), { m with row := m.row.opened openedAt })
  | .getSecretValue _, m => (outside.secret, m)
  | .post _, m => (outside.outcome, { m with time := m.time + outside.elapsed })
  | .createAttempt _, m => ((), m)
  | .sendSignal _, m => ((), m)
  | .incr _, m => ((), m)

theorem Moment.respond_moment (outside : Outside) (op : Op) (s : Store) :
    Moment.respond outside op s.moment =
      ((WebhookRelay.respond outside op s).1, (WebhookRelay.respond outside op s).2.moment) := by
  cases op with
  | setHalfOpen =>
    by_cases h : s.endpoint.circuitState = .open <;>
      simp [Moment.respond, WebhookRelay.respond, Store.moment, h]
  | _ => rfl

/-- What an attempt run in a moment amounts to. -/
structure Course (α : Type) where
  acts : List Act
  moment : Moment
  value : α

/-- The handler of delivery programs that are run in a moment. -/
def moments : Program.Handler relay Outside Moment := Moment.respond

/-- Run a program in a moment. -/
def course {α : Type} (outside : Outside) (m : Moment) (p : Delivery α) : Course α :=
  let r := p.exec moments outside m
  ⟨acts r.events, r.store, r.value⟩

namespace Course

variable {α : Type}

/-- The course with one more act in front. -/
def after (act : Act) (c : Course α) : Course α := { c with acts := act :: c.acts }

variable (outside : Outside) (m : Moment)

@[simp] theorem ret (value : α) : course outside m (.ret value) = ⟨[], m, value⟩ := rfl

theorem getEnabled (hload : outside.keyError = none)
    (rest : Except PyError (Option WebhookEndpoint) → Delivery α) :
    course outside m (.call .getEnabled rest) =
      if m.row.enabled then course outside m (rest (.ok (some m.row)))
      else (course outside m (rest (.ok none))).after .dropped := by
  by_cases h : m.row.enabled
  · have hfound : moments outside .getEnabled m = (.ok (some m.row), m) := by
      simp [moments, Moment.respond, Outside.load, h, hload]
    rw [if_pos h, course, exec_call, hfound]
    rfl
  · have hnone : moments outside .getEnabled m = (.ok none, m) := by
      simp [moments, Moment.respond, h]
    rw [if_neg h, course, exec_call, hnone]
    rfl

@[simp] theorem now (rest : Time → Delivery α) :
    course outside m (.call .now rest) = course outside m (rest m.time) := rfl

@[simp] theorem monotonic (rest : Time → Delivery α) :
    course outside m (.call .monotonic rest) = course outside m (rest m.time) := rfl

theorem setHalfOpen (rest : Bool → Delivery α) :
    course outside m (.call .setHalfOpen rest) =
      if m.row.circuitState = .open then
        course outside { m with row := m.row.halfOpened } (rest true)
      else course outside m (rest false) := by
  by_cases h : m.row.circuitState = .open
  · have hwon : moments outside .setHalfOpen m = (true, { m with row := m.row.halfOpened }) :=
      if_pos h
    rw [if_pos h, course, exec_call, hwon]
    rfl
  · have hlost : moments outside .setHalfOpen m = (false, m) := if_neg h
    rw [if_neg h, course, exec_call, hlost]
    rfl

@[simp] theorem resetCircuit (rest : Unit → Delivery α) :
    course outside m (.call .resetCircuit rest) =
      (course outside { m with row := m.row.reset } (rest ())).after .recordCircuitSuccess := rfl

@[simp] theorem incrementFailures (rest : Unit → Delivery α) :
    course outside m (.call .incrementFailures rest) =
      (course outside { m with row := m.row.counting (m.row.consecutiveFailures + 1) }
        (rest ())).after .recordCircuitFailure := rfl

@[simp] theorem refreshFailures (rest : Nat → Delivery α) :
    course outside m (.call .refreshFailures rest) =
      course outside m (rest m.row.consecutiveFailures) := rfl

@[simp] theorem openCircuit (openedAt : Time) (rest : Unit → Delivery α) :
    course outside m (.call (.openCircuit openedAt) rest) =
      course outside { m with row := m.row.opened openedAt } (rest ()) := rfl

@[simp] theorem getSecretValue (secretId : String) (rest : SecretsAnswer → Delivery α) :
    course outside m (.call (.getSecretValue secretId) rest) =
      course outside m (rest outside.secret) := rfl

@[simp] theorem post (request : Request) (rest : PostOutcome → Delivery α) :
    course outside m (.call (.post request) rest) =
      (course outside { m with time := m.time + outside.elapsed }
        (rest outside.outcome)).after .request := rfl

/-- A row that can be written is. -/
theorem recordThen (settings : Settings) {ctx : AttemptContext} {status : AttemptStatus}
    {details : AttemptDetails} (hwrite : (attemptRow ctx status details).writeError? = none)
    (rest : Delivery TaskEnd) :
    course outside m (WebhookRelay.recordThen settings ctx status details rest) =
      (course outside m rest).after (.row ctx.correlationId ctx.attemptNumber status) := by
  rw [recordThen_eq hwrite]
  by_cases h : settings.statsdClient <;> simp [h] <;> rfl

end Course

/-! ## Attempts that send their request -/

/-- The row after one more failure, counted at the given time against a threshold. -/
def WebhookEndpoint.failing (row : WebhookEndpoint) (threshold : Nat) (time : Time) :
    WebhookEndpoint :=
  if threshold ≤ row.consecutiveFailures + 1 then
    (row.counting (row.consecutiveFailures + 1)).opened time
  else row.counting (row.consecutiveFailures + 1)

/-- The acts of an attempt that sends its request. -/
def Verdict.acts (correlationId : String) (retries : Nat) : Verdict → List Act
  | .retried => [.request, .row correlationId (retries + 1) .retrying]
  | .succeeded => [.request, .row correlationId (retries + 1) .succeeded, .recordCircuitSuccess]
  | .exhausted => [.request, .row correlationId (retries + 1) .exhausted, .recordCircuitFailure]
  | .unrecorded _ => [.request]

/-- The row as such an attempt leaves it at the given time. -/
def Verdict.settle (threshold : Nat) (time : Time) (row : WebhookEndpoint) :
    Verdict → WebhookEndpoint
  | .retried | .unrecorded _ => row
  | .succeeded => row.reset
  | .exhausted => row.failing threshold time

/-- How such an attempt ends. -/
def Verdict.finish (settings : Settings) (retries : Nat) : Verdict → TaskEnd
  | .retried => .retry (retries + 1) (backoffSeconds settings (retries + 1))
  | .unrecorded e => .raised e
  | _ => .returned

/-- The course of an attempt from the request on. -/
def Verdict.course (settings : Settings) (correlationId : String) (retries threshold : Nat)
    (m : Moment) (v : Verdict) : Course TaskEnd :=
  ⟨v.acts correlationId retries, { m with row := v.settle threshold m.time m.row },
    v.finish settings retries⟩

theorem course_recordCircuitFailure (outside : Outside) (m : Moment) (endpoint : WebhookEndpoint) :
    course outside m (endpoint.recordCircuitFailure >>= fun _ => return .returned) =
      ⟨[.recordCircuitFailure],
        { m with row := m.row.failing endpoint.circuitBreakerFailureThreshold m.time },
        TaskEnd.returned⟩ := by
  rw [WebhookEndpoint.recordCircuitFailure_bind, Course.incrementFailures, Course.refreshFailures]
  by_cases hreach : endpoint.circuitBreakerFailureThreshold ≤ m.row.consecutiveFailures + 1
  · simp [hreach, WebhookEndpoint.failing, Course.after]
  · simp [hreach, WebhookEndpoint.failing, Course.after]

/-- An attempt with nothing left to try records its row and counts the failure, if the row can be
written. -/
theorem course_exhausted (settings : Settings) (outside : Outside) (m : Moment)
    {ctx : AttemptContext} {retries : Nat} (hnumber : ctx.attemptNumber = retries + 1)
    {payload : Payload} {details : AttemptDetails} (hpayload : details.payload = some payload) :
    (course outside m (recordThen settings ctx .exhausted details do
        let _ ← ctx.endpoint.recordCircuitFailure
        return .returned)).after .request =
      (Verdict.exhaustedUnless (exhaustionError ctx.endpoint payload)).course settings
        ctx.correlationId retries ctx.endpoint.circuitBreakerFailureThreshold m := by
  have hwrite := writeError?_exhausted ctx hpayload
  cases herror : exhaustionError ctx.endpoint payload with
  | none =>
    rw [herror] at hwrite
    have hfails := course_recordCircuitFailure outside m ctx.endpoint
    simp only [pure_def] at hfails
    rw [Course.recordThen outside m settings hwrite]
    simp [Verdict.exhaustedUnless, Verdict.course, Verdict.acts, Verdict.settle, Verdict.finish,
      Course.after, hfails, hnumber]
  | some e =>
    rw [herror] at hwrite
    rw [recordThen_raises hwrite]
    rfl

/-- After a handled outcome the attempt follows its verdict. -/
theorem course_conclude (settings : Settings) (outside : Outside) (m : Moment)
    {ctx : AttemptContext} {retries : Nat} (hnumber : ctx.attemptNumber = retries + 1)
    (payload : Payload) (start : Time) {outcome : PostOutcome} (h : outcome.handled) :
    (course outside m (conclude settings ctx retries payload start outcome)).after .request =
      (verdict ctx.endpoint.maxRetries retries (exhaustionError ctx.endpoint payload)
        outcome).course settings ctx.correlationId retries
          ctx.endpoint.circuitBreakerFailureThreshold m := by
  obtain ⟨exc, details, hdetails, htree⟩ := conclude_handled settings ctx retries payload start h
  rw [htree, Course.monotonic, verdict]
  by_cases hretryable : outcome.retryable
  · by_cases hleft : retries + 1 < ctx.endpoint.maxRetries
    · have hwithin : ¬ retries + 1 > ctx.endpoint.maxRetries := by omega
      rw [if_pos hretryable, if_pos hretryable, if_pos hleft, failOrRetry, hnumber, if_pos hleft,
        Course.recordThen outside m settings (writeError?_attemptRow (by simp))]
      simp [hnumber, taskRetry, hwithin, Verdict.course, Verdict.acts, Verdict.settle,
        Verdict.finish, Course.after]
    · have hfailed : outcome.succeeded = false :=
        Bool.eq_false_iff.mpr fun h => by
          simp [PostOutcome.not_retryable_of_succeeded h] at hretryable
      rw [if_pos hretryable, if_pos hretryable, if_neg hleft, failOrRetry, hnumber, if_neg hleft]
      exact course_exhausted settings outside m hnumber (hdetails hfailed m.time)
  · rw [if_neg hretryable, if_neg hretryable]
    by_cases hsucceeded : outcome.succeeded
    · rw [if_pos hsucceeded, if_pos hsucceeded,
        Course.recordThen outside m settings (writeError?_attemptRow (by simp))]
      simp [hnumber, Verdict.course, Verdict.acts, Verdict.settle, Verdict.finish, Course.after,
        WebhookEndpoint.recordCircuitSuccess_bind]
    · rw [if_neg hsucceeded, if_neg hsucceeded]
      exact course_exhausted settings outside m hnumber
        (hdetails (Bool.eq_false_iff.mpr hsucceeded) m.time)

/-- If the secrets manager does not fail, there is a request to send. -/
theorem course_buildRequest (lib : Primitives) {settings : Settings} {outside : Outside}
    (m : Moment) {endpoint : WebhookEndpoint} (hbuilds : builds settings endpoint)
    (hsecret : outside.secret ≠ .failed) (correlationId : String) (payload : Payload)
    {α : Type} (f : Except PyError Request → Delivery α) :
    ∃ request, course outside m (buildRequest lib settings endpoint correlationId payload >>= f) =
      course outside m (f (.ok request)) := by
  have hasks := buildRequest_asks lib hbuilds correlationId payload
  generalize buildRequest lib settings endpoint correlationId payload = p at hasks
  cases hasks with
  | ready request => exact ⟨request, rfl⟩
  | ask secretId request =>
    refine ⟨request outside.secret, ?_⟩
    have hfound : unlessFailed request outside.secret = .ok (request outside.secret) := by
      cases h : outside.secret with
      | failed => exact absurd h hsecret
      | _ => rfl
    simp [hfound]

/-- An attempt that is let through and can build its request follows its verdict. -/
theorem course_sendAttempt (lib : Primitives) {settings : Settings} {outside : Outside}
    (m : Moment) {ctx : AttemptContext} {retries : Nat} (hnumber : ctx.attemptNumber = retries + 1)
    (hbuilds : builds settings ctx.endpoint) (hsecret : outside.secret ≠ .failed)
    (hhandled : outside.outcome.handled) (payload : Payload) :
    course outside m (sendAttempt lib settings ctx retries payload) =
      (verdict ctx.endpoint.maxRetries retries (exhaustionError ctx.endpoint payload)
        outside.outcome).course settings ctx.correlationId
        retries ctx.endpoint.circuitBreakerFailureThreshold
        { m with time := m.time + outside.elapsed } := by
  obtain ⟨request, hrequest⟩ : ∃ request,
      course outside m (sendAttempt lib settings ctx retries payload) =
        course outside m (.call .monotonic fun start => .call (.post request) fun outcome =>
          conclude settings ctx retries payload start outcome) :=
    course_buildRequest lib m hbuilds hsecret ctx.correlationId payload _
  rw [hrequest, Course.monotonic, Course.post]
  exact course_conclude settings outside _ hnumber payload _ hhandled

/-! ## The breaker check -/

/-- The copy with which a first attempt is let through by an up-to-date row. -/
def admitted (row : WebhookEndpoint) (time : Time) : Option WebhookEndpoint :=
  if !row.circuitBreakerEnabled || row.circuitState = .closed then some row
  else if row.circuitState = .halfOpen then none
  else match row.circuitOpenedAt with
    | none => some row
    | some openedAt => if time - openedAt < row.cooldown then none else some row.halfOpened

/-- The copy with which the attempt with this number of retries is let through. -/
def letThrough (retries : Nat) (m : Moment) : Option WebhookEndpoint :=
  if retries = 0 then admitted m.row m.time else some m.row

theorem letThrough_cases {retries : Nat} {m : Moment} {row : WebhookEndpoint}
    (h : letThrough retries m = some row) : row = m.row ∨ row = m.row.halfOpened := by
  unfold letThrough admitted at h
  split at h
  · split at h
    · exact .inl (Option.some.inj h).symm
    · split at h
      · cases h
      · split at h
        · exact .inl (Option.some.inj h).symm
        · split at h
          · cases h
          · exact .inr (Option.some.inj h).symm
  · exact .inl (Option.some.inj h).symm

theorem course_gate (outside : Outside) (m : Moment) (retries : Nat) {α : Type}
    (f : Bool × WebhookEndpoint → Delivery α) :
    course outside m (gate m.row (retries + 1) >>= f) = match letThrough retries m with
      | some row => course outside { m with row } (f (true, row))
      | none => course outside m (f (false, m.row)) := by
  by_cases hfirst : retries = 0
  · subst hfirst
    simp only [gate, if_true, letThrough, admitted]
    rw [WebhookEndpoint.tryAcquireDeliverySlot_bind]
    by_cases hclosed : !m.row.circuitBreakerEnabled || m.row.circuitState = .closed
    · simp [hclosed]
    by_cases hhalf : m.row.circuitState = .halfOpen
    · simp [hhalf, show m.row.circuitBreakerEnabled by simp_all]
    have hopen : m.row.circuitState = .open := by
      cases h : m.row.circuitState <;> simp_all
    simp only [hclosed, hhalf, if_false]
    cases m.row.circuitOpenedAt with
    | none => rfl
    | some openedAt =>
      by_cases helapsed : m.time - openedAt < m.row.cooldown
      · simp [helapsed]
      · simp [helapsed, Course.setHalfOpen, hopen]
  · simp [gate, hfirst, letThrough]

/-! ## Whole attempts -/

section Attempt

variable (lib : Primitives) {settings : Settings} {job : Job} {retries : Nat}
  {outside : Outside} {m : Moment}

variable (hload : outside.keyError = none)

include hload

/-- An attempt that finds the endpoint disabled is dropped. -/
theorem dropped (h : m.row.enabled = false) :
    course outside m (deliverWebhook lib settings job retries) = ⟨[.dropped], m, .returned⟩ := by
  simp [deliverWebhook, Course.getEnabled, hload, h, Course.after]

/-- An attempt whose payload the filter holds back is recorded as skipped. -/
theorem skipped (henabled : m.row.enabled) {payload : Payload}
    (hshape : shapeAndCheck (job.rawPayload retries) m.row = .ok (payload, false)) :
    course outside m (deliverWebhook lib settings job retries) =
      ⟨[.row job.correlationId (retries + 1) .skipped], m, .returned⟩ := by
  simp [deliverWebhook, Course.getEnabled, hload, henabled, hshape,
    Course.recordThen outside m settings (writeError?_attemptRow _), Course.after]

/-- An attempt that the breaker holds back is recorded as such. -/
theorem rejected (henabled : m.row.enabled) (hpasses : passes job retries m.row)
    (hgate : letThrough retries m = none) :
    course outside m (deliverWebhook lib settings job retries) =
      ⟨[.row job.correlationId (retries + 1) .circuitOpen], m, .returned⟩ := by
  obtain ⟨payload, hshape⟩ := passes_iff.mp hpasses
  simp [deliverWebhook, Course.getEnabled, hload, henabled, hshape, course_gate, hgate,
    Course.recordThen outside m settings (writeError?_attemptRow _), Course.after]

/-- Any other attempt that raises no exception before its request sends it and follows its
verdict. -/
theorem sends (henabled : m.row.enabled) (hpasses : passes job retries m.row)
    {row : WebhookEndpoint} (hgate : letThrough retries m = some row)
    (hbuilds : builds settings m.row) (hsecret : outside.secret ≠ .failed)
    (hhandled : outside.outcome.handled) :
    course outside m (deliverWebhook lib settings job retries) =
      (verdict m.row.maxRetries retries (recordError job retries m.row)
        outside.outcome).course settings job.correlationId retries
        m.row.circuitBreakerFailureThreshold
        { row, time := m.time + outside.elapsed } := by
  obtain ⟨payload, hshape⟩ := passes_iff.mp hpasses
  rw [recordError_eq hshape]
  -- the copy that is let through has the configuration of the row
  obtain ⟨hretries, hthreshold, hbuilds', herror⟩ : row.maxRetries = m.row.maxRetries ∧
      row.circuitBreakerFailureThreshold = m.row.circuitBreakerFailureThreshold ∧
        builds settings row ∧ exhaustionError row payload = exhaustionError m.row payload := by
    rcases letThrough_cases hgate with rfl | rfl <;> exact ⟨rfl, rfl, hbuilds, rfl⟩
  have hcourse : ∀ ctx : AttemptContext, ctx.endpoint = row →
      ctx.correlationId = job.correlationId → ctx.attemptNumber = retries + 1 →
      course outside { m with row } (sendAttempt lib settings ctx retries payload) =
        (verdict m.row.maxRetries retries (exhaustionError m.row payload)
          outside.outcome).course settings job.correlationId
          retries m.row.circuitBreakerFailureThreshold
          { row, time := m.time + outside.elapsed } := by
    rintro ctx rfl hcorrelation hnumber
    rw [← hretries, ← hthreshold, ← hcorrelation, ← herror]
    exact course_sendAttempt lib _ hnumber hbuilds' hsecret hhandled payload
  simp [deliverWebhook, Course.getEnabled, hload, henabled, hshape, course_gate, hgate, hcourse]

end Attempt

end WebhookRelay
