import WebhookRelay.Model.Tasks

/-!
# When an attempt gets as far as its request

An attempt that has loaded its row sends a request if the row shapes the payload without
an exception, the filter passes it, the breaker lets it through and the headers can be
built. All but the breaker and the answer of the secrets manager depend on the row and
the payload only.
-/

namespace WebhookRelay

open Interleaving Program

/-- Neither the custom headers nor the choice of the secret backend raises. -/
def builds (settings : Settings) (endpoint : WebhookEndpoint) : Bool :=
  (!endpoint.customHeaders.truthy || endpoint.customHeaders.isDict) &&
    (getSecretBackend settings).isOk

/-- The lists apply to the payload of this attempt and the filter passes the result. -/
def passes (job : Job) (retries : Nat) (endpoint : WebhookEndpoint) : Bool :=
  match shapeAndCheck (job.rawPayload retries) endpoint with
  | .ok (_, shouldSend) => shouldSend
  | .error _ => false

/-- With this row the attempt sends its request, breaker and secrets manager permitting. -/
def deliverable (settings : Settings) (job : Job) (retries : Nat)
    (endpoint : WebhookEndpoint) : Bool :=
  passes job retries endpoint && builds settings endpoint

theorem passes_iff {job : Job} {retries : Nat} {endpoint : WebhookEndpoint} :
    passes job retries endpoint ↔
      ∃ payload, shapeAndCheck (job.rawPayload retries) endpoint = .ok (payload, true) := by
  unfold passes
  split
  · next payload shouldSend h => simp [h]
  · next e h => simp [h]

/-- It is these two that a request needs before the secrets manager is asked. -/
theorem builds_iff {settings : Settings} {endpoint : WebhookEndpoint} (correlationId : String) :
    builds settings endpoint ↔
      (∃ headers, baseHeaders endpoint correlationId = .ok headers) ∧
        ∃ backend, getSecretBackend settings = .ok backend := by
  have hheaders : (!endpoint.customHeaders.truthy || endpoint.customHeaders.isDict) ↔
      ∃ headers, baseHeaders endpoint correlationId = .ok headers := by
    by_cases htruthy : endpoint.customHeaders.truthy
    · cases hc : endpoint.customHeaders <;> simp_all [baseHeaders, Json.isDict]
    · simp [baseHeaders, htruthy]
  have hbackend : (getSecretBackend settings).isOk ↔
      ∃ backend, getSecretBackend settings = .ok backend := by
    cases getSecretBackend settings <;> simp [Except.isOk, Except.toBool]
  rw [builds, Bool.and_eq_true, hheaders, hbackend]

/-! ## What an attempt records -/

/-- How the row of an attempt that is exhausted with this payload fails to be written. -/
def exhaustionError (endpoint : WebhookEndpoint) (payload : Payload) : Option PyError :=
  if endpoint.retainPayloadSnapshot then payload.writeError? else none

/-- The same, given the payload of the job. -/
def recordError (job : Job) (retries : Nat) (endpoint : WebhookEndpoint) : Option PyError :=
  match shapeAndCheck (job.rawPayload retries) endpoint with
  | .ok (payload, _) => exhaustionError endpoint payload
  | .error _ => none

theorem recordError_eq {job : Job} {retries : Nat} {endpoint : WebhookEndpoint}
    {payload : Payload} {shouldSend : Bool}
    (h : shapeAndCheck (job.rawPayload retries) endpoint = .ok (payload, shouldSend)) :
    recordError job retries endpoint = exhaustionError endpoint payload := by
  rw [recordError, h]

section Record

variable {settings : Settings} {ctx : AttemptContext} {details : AttemptDetails}

/-- A row without a snapshot can always be written. -/
theorem writeError?_attemptRow {status : AttemptStatus} (h : status ≠ .exhausted) :
    (attemptRow ctx status details).writeError? = none := by
  simp [attemptRow, WebhookDeliveryAttempt.writeError?, h]

theorem writeError?_exhausted (ctx : AttemptContext) {details : AttemptDetails} {payload : Payload}
    (h : details.payload = some payload) :
    (attemptRow ctx .exhausted details).writeError? = exhaustionError ctx.endpoint payload := by
  by_cases hretain : ctx.endpoint.retainPayloadSnapshot <;>
    simp [attemptRow, WebhookDeliveryAttempt.writeError?, exhaustionError, hretain, h]

/-- The metric that goes with a row. -/
def metricOf (ctx : AttemptContext) (status : AttemptStatus) (details : AttemptDetails) :
    DeliveryMetric where
  status := status
  endpointId := ctx.endpoint.pk
  event := ctx.event
  correlationId := ctx.correlationId
  httpStatusCode := details.httpStatusCode

/-- Recording a row that can be written, as a tree of calls. -/
theorem recordThen_eq {status : AttemptStatus}
    (h : (attemptRow ctx status details).writeError? = none) (rest : Delivery TaskEnd) :
    recordThen settings ctx status details rest =
      .call (.createAttempt (attemptRow ctx status details)) fun _ =>
        .call (.sendSignal (metricOf ctx status details)) fun _ =>
          if settings.statsdClient then
            .call (.incr ("openedx_webhook_relay.delivery." ++ status.value)) fun _ => rest
          else rest := by
  rw [recordThen, recordAttempt, h]
  by_cases hclient : settings.statsdClient <;>
    simp only [emitDeliveryMetric, hclient, if_true, if_false, Delivery.createAttempt,
      Delivery.sendSignal, Delivery.incr, Program.pure_def, Program.call_bind, Program.ret_bind,
      Bool.false_eq_true, metricOf]

/-- Recording a row that cannot be written is the end of the attempt. -/
theorem recordThen_raises {status : AttemptStatus} {e : PyError}
    (h : (attemptRow ctx status details).writeError? = some e) (rest : Delivery TaskEnd) :
    recordThen settings ctx status details rest = .ret (.raised e) := by
  rw [recordThen, recordAttempt, h]
  rfl

end Record

/-! ## What building a request can do -/

/-- The result of asking the secrets manager: an exception exactly if it failed. -/
def unlessFailed {α : Type} (value : SecretsAnswer → α) : SecretsAnswer → Except PyError α
  | .failed => .error .secretsManagerError
  | answer => .ok (value answer)

/-- Programs that ask the secrets manager at most once and fail only if it does. -/
inductive AsksSecrets {α : Type} : Delivery (Except PyError α) → Prop where
  | ready (value : α) : AsksSecrets (.ret (.ok value))
  | ask (secretId : String) (value : SecretsAnswer → α) :
      AsksSecrets (.call (.getSecretValue secretId) fun answer => .ret (unlessFailed value answer))

theorem AsksSecrets.map {α β : Type} {p : Delivery (Except PyError α)} (h : AsksSecrets p)
    (f : α → β) : AsksSecrets (p >>= fun r => .ret (r.map f)) := by
  cases h with
  | ready value => exact .ready (f value)
  | ask secretId value =>
    have hmap : ∀ answer, (unlessFailed value answer).map f = unlessFailed (f ∘ value) answer := by
      intro answer
      cases answer <;> rfl
    simpa [hmap] using AsksSecrets.ask secretId (f ∘ value)

theorem effectiveSecret_asks {settings : Settings} {backend : SecretBackend}
    (h : getSecretBackend settings = .ok backend) (endpoint : WebhookEndpoint) :
    AsksSecrets (endpoint.effectiveSecret settings) := by
  have hmap : endpoint.effectiveSecret settings =
      backend.getSecret settings endpoint >>= fun r => .ret (r.map fun secret =>
        if secret ≠ "" then secret else settings.defaultSecret) := by
    simp only [WebhookEndpoint.effectiveSecret, h]
    congr 1
    funext r
    cases r with
    | error e => rfl
    | ok secret => by_cases hs : secret = "" <;> simp [hs, Except.map]
  rw [hmap]
  refine AsksSecrets.map ?_ _
  cases backend with
  | database => exact .ready endpoint.signingSecret
  | awsSecretsManager =>
    rw [SecretBackend.getSecret]
    cases hreference : endpoint.secretBackendReference with
    | none =>
      have hnone : awsGetSecret settings endpoint = .ret (.ok "") := by
        simp [awsGetSecret, hreference]
      exact hnone ▸ .ready ""
    | some reference =>
      let found : SecretsAnswer → String
        | .found secretString => secretString.getD ""
        | _ => ""
      have hask : awsGetSecret settings endpoint =
          .call (.getSecretValue (settings.awsSecretNamePrefix ++ "/" ++ reference))
            fun answer => .ret (unlessFailed found answer) := by
        simp only [awsGetSecret, secretName, hreference]
        exact congrArg (Program.call _) (funext fun answer => by cases answer <;> rfl)
      exact hask ▸ .ask _ found

/-- If neither the headers nor the backend raises, building a request comes down to
asking for the secret. -/
theorem buildRequest_asks (lib : Primitives) {settings : Settings} {endpoint : WebhookEndpoint}
    (h : builds settings endpoint) (correlationId : String) (payload : Payload) :
    AsksSecrets (buildRequest lib settings endpoint correlationId payload) := by
  obtain ⟨⟨headers, hheaders⟩, backend, hbackend⟩ := (builds_iff correlationId).mp h
  have hmap : ∃ request, buildRequest lib settings endpoint correlationId payload =
      endpoint.effectiveSecret settings >>= fun r => .ret (r.map request) := by
    refine ⟨?_, ?_⟩
    rotate_left
    · simp only [buildRequest, hheaders]
      congr 1
      funext r
      cases r <;> rfl
  obtain ⟨request, hrequest⟩ := hmap
  rw [hrequest]
  exact (effectiveSecret_asks hbackend endpoint).map request

/-- Otherwise it raises without performing an operation. -/
theorem buildRequest_raises (lib : Primitives) {settings : Settings} {endpoint : WebhookEndpoint}
    (h : builds settings endpoint = false) (correlationId : String) (payload : Payload) :
    ∃ e, buildRequest lib settings endpoint correlationId payload = .ret (.error e) := by
  have hnot : ¬ ((∃ headers, baseHeaders endpoint correlationId = .ok headers) ∧
      ∃ backend, getSecretBackend settings = .ok backend) := by
    rw [← builds_iff, h]
    exact Bool.false_ne_true
  cases hheaders : baseHeaders endpoint correlationId with
  | error e => exact ⟨e, by simp [buildRequest, hheaders]⟩
  | ok headers =>
    cases hbackend : getSecretBackend settings with
    | error e =>
      exact ⟨e, by simp [buildRequest, hheaders, WebhookEndpoint.effectiveSecret, hbackend]⟩
    | ok backend => exact absurd ⟨⟨headers, hheaders⟩, backend, hbackend⟩ hnot

/-! ## What the outcome of a request leads to -/

namespace PostOutcome

/-- The task does something about the outcome; it lets any other exception escape. -/
def handled : PostOutcome → Bool
  | .otherException _ => false
  | _ => true

/-- A connection error, a timeout, a server error or a 429. -/
def retryable : PostOutcome → Bool
  | .connectionError _ | .timeout _ => true
  | .response statusCode _ => statusCode ≥ 500 || statusCode = 429
  | .otherException _ => false

/-- A response below 400. -/
def succeeded : PostOutcome → Bool
  | .response statusCode _ => statusCode < 400
  | _ => false

theorem not_retryable_of_succeeded {outcome : PostOutcome} (h : outcome.succeeded) :
    outcome.retryable = false := by
  cases outcome with
  | response statusCode text =>
    simp only [succeeded, decide_eq_true_eq] at h
    simp only [retryable, Bool.or_eq_false_iff, decide_eq_false_iff_not]
    omega
  | _ => cases h

end PostOutcome

/-- What an attempt makes of the outcome of its request. An exhausted attempt whose row cannot be
written ends there, with the exception. -/
inductive Verdict where
  | retried | succeeded | exhausted
  | unrecorded (error : PyError)
  deriving DecidableEq

/-- The verdict when there is nothing left to try. -/
def Verdict.exhaustedUnless : Option PyError → Verdict
  | none => .exhausted
  | some e => .unrecorded e

theorem Verdict.exhaustedUnless_ne_retried (recordError : Option PyError) :
    exhaustedUnless recordError ≠ .retried := by
  cases recordError <;> simp [exhaustedUnless]

/-- The verdict on an outcome, given how the row of an exhausted attempt would fail. -/
def verdict (maxRetries retries : Nat) (recordError : Option PyError) (outcome : PostOutcome) :
    Verdict :=
  if outcome.retryable then
    if retries + 1 < maxRetries then .retried else .exhaustedUnless recordError
  else if outcome.succeeded then .succeeded else .exhaustedUnless recordError

/-- The attempt ends without a row. -/
def Verdict.isUnrecorded : Verdict → Bool
  | .unrecorded _ => true
  | _ => false

/-- After a handled outcome the attempt reads the clock once more and then fails or
retries, records a success or records a client error, the failures with their payload. -/
theorem conclude_handled (settings : Settings) (ctx : AttemptContext) (retries : Nat)
    (payload : Payload) (start : Time) {outcome : PostOutcome} (h : outcome.handled) :
    ∃ (exc : PyError) (details : Time → AttemptDetails),
      (outcome.succeeded = false → ∀ stop, (details stop).payload = some payload) ∧
      conclude settings ctx retries payload start outcome = .call .monotonic fun stop =>
        if outcome.retryable then failOrRetry settings ctx retries exc (details stop)
        else if outcome.succeeded then
          recordThen settings ctx .succeeded (details stop) do
            let _ ← ctx.endpoint.recordCircuitSuccess
            return .returned
        else
          recordThen settings ctx .exhausted (details stop) do
            let _ ← ctx.endpoint.recordCircuitFailure
            return .returned := by
  cases outcome with
  | otherException message => cases h
  | connectionError message | timeout message =>
    let details (stop : Time) : AttemptDetails :=
      { durationMs := some ((stop - start) / 1000), errorMessage := message,
        payload := some payload }
    exact ⟨_, details, fun _ _ => rfl, rfl⟩
  | response statusCode text =>
    by_cases hretryable : statusCode ≥ 500 || statusCode = 429
    · let details (stop : Time) : AttemptDetails :=
        { durationMs := some ((stop - start) / 1000), errorMessage := slice 2000 text,
          httpStatusCode := some statusCode, payload := some payload }
      refine ⟨?exc, details, fun _ _ => rfl, ?tree⟩
      case tree =>
        simp only [conclude, PostOutcome.retryable, hretryable, if_true]
        rfl
    · have hfinal : (PostOutcome.response statusCode text).retryable = false := by
        simpa [PostOutcome.retryable] using hretryable
      by_cases herror : statusCode ≥ 400
      · have hfailed : (PostOutcome.response statusCode text).succeeded = false := by
          simpa [PostOutcome.succeeded] using herror
        simp only [hfinal, hfailed, Bool.false_eq_true, if_false]
        let details (stop : Time) : AttemptDetails :=
          { durationMs := some ((stop - start) / 1000), errorMessage := slice 2000 text,
            httpStatusCode := some statusCode, payload := some payload }
        refine ⟨.typeError, details, fun _ _ => rfl, ?_⟩
        simp only [conclude, hretryable, herror, Bool.false_eq_true, if_false, if_true]
        rfl
      · have hsucceeded : (PostOutcome.response statusCode text).succeeded = true := by
          simpa [PostOutcome.succeeded] using herror
        simp only [hfinal, hsucceeded, Bool.false_eq_true, if_false, if_true]
        let details (stop : Time) : AttemptDetails :=
          { durationMs := some ((stop - start) / 1000), httpStatusCode := some statusCode }
        refine ⟨.typeError, details, fun h => absurd h (by simp), ?_⟩
        simp only [conclude, hretryable, herror, Bool.false_eq_true, if_false]
        rfl

end WebhookRelay
