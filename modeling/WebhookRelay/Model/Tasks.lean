import Mathlib.Algebra.Order.Ring.Int
import WebhookRelay.Model.SecretsBackend

/-!
# The delivery task

`tasks.deliver_webhook` with everything it calls in `tasks.py` and `metrics.py`. One run
of `deliverWebhook` is one attempt; how Celery runs the attempts of a chain one after the
other is in `WebhookRelay.Model.Celery`. Logging is left out: nothing reads it.

The body of the task is cut where the source has its paragraphs: `gate` is the breaker
check, `buildRequest` the headers and signatures, `conclude` the handling of the outcome.
-/

namespace WebhookRelay

open Interleaving Delivery Dictionary

/-- How an attempt ends: it returns, it is scheduled again, or an exception escapes. -/
inductive TaskEnd where
  | returned
  | retry (retries : Nat) (countdown : Int)
  | raised (error : PyError)

/-- `task.retry(exc=…, countdown=…, max_retries=…)`: Celery itself gives up, raising `exc`,
once the next number of retries exceeds the maximum. -/
def taskRetry (requestRetries : Nat) (exc : PyError) (countdown : Int) (maxRetries : Nat) :
    TaskEnd :=
  if requestRetries + 1 > maxRetries then .raised exc
  else .retry (requestRetries + 1) countdown

/-- The arguments of one chain of attempts. Celery hands every attempt the raw payload as
the attempt before left it, so it is given per number of retries. -/
structure Job where
  event : String
  correlationId : String
  rawPayload : Nat → Payload

/-- `_shape_and_check`: allowlist, then denylist, then the pass-only filter. -/
def shapeAndCheck (rawPayload : Payload) (endpoint : WebhookEndpoint) :
    Except PyError (Payload × Bool) := do
  let payload ← if endpoint.piiAllowlist.truthy
    then applyAllowlist rawPayload endpoint.piiAllowlist else .ok rawPayload
  let payload ← if endpoint.piiDenylist.truthy
    then applyDenylist payload endpoint.piiDenylist else .ok payload
  return (payload, shouldSendPassingEvent payload.members endpoint.onlyOnPassing)

/-- `_backoff_seconds`. -/
def backoffSeconds (settings : Settings) (attemptNumber : Nat) : Int :=
  min (settings.retryBackoffSeconds * 2 ^ (attemptNumber - 1)) settings.retryBackoffMaxSeconds

/-- The first `n` characters, `text[:n]`. -/
def slice (n : Nat) (text : String) : String := String.ofList (text.toList.take n)

/-! ## The audit trail -/

/-- What every audit row of one attempt shares. -/
structure AttemptContext where
  endpoint : WebhookEndpoint
  event : String
  correlationId : String
  attemptNumber : Nat
  fingerprint : String

/-- The optional keyword arguments of `_record_attempt`. -/
structure AttemptDetails where
  httpStatusCode : Option Nat := none
  durationMs : Option Int := none
  errorMessage : String := ""
  payload : Option Payload := none

/-- `emit_delivery_metric`: failures of either sink are swallowed. -/
def emitDeliveryMetric (settings : Settings) (metric : DeliveryMetric) : Delivery Unit := do
  sendSignal metric
  if settings.statsdClient then
    incr ("openedx_webhook_relay.delivery." ++ metric.status.value)

/-- The row that `_record_attempt` creates; only an exhausted attempt of an endpoint that
opted in keeps its payload. -/
def attemptRow (ctx : AttemptContext) (status : AttemptStatus) (details : AttemptDetails) :
    WebhookDeliveryAttempt where
  endpointId := ctx.endpoint.pk
  event := ctx.event
  correlationId := ctx.correlationId
  attemptNumber := ctx.attemptNumber
  status := status
  httpStatusCode := details.httpStatusCode
  durationMs := details.durationMs
  errorMessage := slice 4000 details.errorMessage
  payloadFingerprint := ctx.fingerprint
  payloadSnapshot :=
    if status = .exhausted && ctx.endpoint.retainPayloadSnapshot then details.payload else none

/-- `_record_attempt`. A row that cannot be written raises before anything else happens. -/
def recordAttempt (settings : Settings) (ctx : AttemptContext) (status : AttemptStatus)
    (details : AttemptDetails) : Delivery (Except PyError Unit) :=
  match (attemptRow ctx status details).writeError? with
  | some e => return .error e
  | none => do
    createAttempt (attemptRow ctx status details)
    emitDeliveryMetric settings
      { status, endpointId := ctx.endpoint.pk, event := ctx.event,
        correlationId := ctx.correlationId, httpStatusCode := details.httpStatusCode }
    return .ok ()

/-- Go on after `_record_attempt` unless it raises. -/
def recordThen (settings : Settings) (ctx : AttemptContext) (status : AttemptStatus)
    (details : AttemptDetails) (rest : Delivery TaskEnd) : Delivery TaskEnd := do
  match ← recordAttempt settings ctx status details with
  | .error e => return .raised e
  | .ok () => rest

/-! ## The request -/

/-- The headers before signing: the fixed ones, overridden by the custom ones. Unpacking
anything but a dictionary raises. -/
def baseHeaders (endpoint : WebhookEndpoint) (correlationId : String) :
    Except PyError Members :=
  let fixed : Members := [("Content-Type", .str "application/json"),
    ("Accept", .str "application/json"),
    ("X-OpenEdX-Webhook-Correlation-Id", .str correlationId)]
  if endpoint.customHeaders.truthy then
    match endpoint.customHeaders with
    | .obj custom => .ok (custom.foldl (fun headers e => set headers e.1 e.2) fixed)
    | _ => .error .typeError
  else .ok fixed

/-- The headers with a signature under `name`, if there is a secret to sign with. -/
def addSignature (lib : Primitives) (headers : Members) (name payloadBytes secret : String) :
    Members :=
  if secret ≠ "" then set headers name (.str (signPayload lib payloadBytes secret)) else headers

/-- The part of the task between the breaker and the request. -/
def buildRequest (lib : Primitives) (settings : Settings) (endpoint : WebhookEndpoint)
    (correlationId : String) (payload : Payload) : Delivery (Except PyError Request) :=
  let payloadBytes := serializePayload lib payload
  match baseHeaders endpoint correlationId with
  | .error e => return .error e
  | .ok headers => do
    match ← endpoint.effectiveSecret settings with
    | .error e => return .error e
    | .ok secret =>
      let headers := addSignature lib headers settings.signatureHeader payloadBytes secret
      let headers := addSignature lib headers (settings.signatureHeader ++ "-Previous")
        payloadBytes endpoint.effectivePreviousSecret
      return .ok { url := endpoint.webhookUrl, data := payloadBytes, headers,
                   timeout := endpoint.timeoutSeconds }

/-! ## Outcomes -/

/-- `_fail_or_retry`. -/
def failOrRetry (settings : Settings) (ctx : AttemptContext) (requestRetries : Nat)
    (exc : PyError) (details : AttemptDetails) : Delivery TaskEnd :=
  if ctx.attemptNumber < ctx.endpoint.maxRetries then
    recordThen settings ctx .retrying { details with payload := none } do
      return taskRetry requestRetries exc (backoffSeconds settings ctx.attemptNumber)
        ctx.endpoint.maxRetries
  else
    recordThen settings ctx .exhausted details do
      let _ ← ctx.endpoint.recordCircuitFailure
      return .returned

/-- The part of the task after `requests.post`. -/
def conclude (settings : Settings) (ctx : AttemptContext) (requestRetries : Nat)
    (payload : Payload) (start : Time) (outcome : PostOutcome) : Delivery TaskEnd :=
  match outcome with
  | .otherException message => return .raised (.requestException message)
  | .connectionError message | .timeout message => do
    let durationMs := ((← monotonic) - start) / 1000
    failOrRetry settings ctx requestRetries (.requestException message)
      { durationMs := some durationMs, errorMessage := message, payload := some payload }
  | .response statusCode text => do
    let durationMs := ((← monotonic) - start) / 1000
    if statusCode ≥ 500 || statusCode = 429 then
      let exc := .retryableDeliveryError
        ("Retryable HTTP " ++ toString statusCode ++ " from " ++ ctx.endpoint.webhookUrl)
        statusCode
      failOrRetry settings ctx requestRetries exc
        { durationMs := some durationMs, errorMessage := slice 2000 text,
          httpStatusCode := some statusCode, payload := some payload }
    else if statusCode ≥ 400 then
      recordThen settings ctx .exhausted
        { durationMs := some durationMs, errorMessage := slice 2000 text,
          httpStatusCode := some statusCode, payload := some payload } do
        let _ ← ctx.endpoint.recordCircuitFailure
        return .returned
    else
      recordThen settings ctx .succeeded
        { durationMs := some durationMs, httpStatusCode := some statusCode } do
        let _ ← ctx.endpoint.recordCircuitSuccess
        return .returned

/-! ## The task -/

/-- The breaker check, made by the first attempt of a chain only. -/
def gate (endpoint : WebhookEndpoint) (attemptNumber : Nat) :
    Delivery (Bool × WebhookEndpoint) :=
  if attemptNumber = 1 then endpoint.tryAcquireDeliverySlot else return (true, endpoint)

/-- An attempt that the breaker has let through. -/
def sendAttempt (lib : Primitives) (settings : Settings) (ctx : AttemptContext)
    (requestRetries : Nat) (payload : Payload) : Delivery TaskEnd := do
  match ← buildRequest lib settings ctx.endpoint ctx.correlationId payload with
  | .error e => return .raised e
  | .ok request =>
    let start ← monotonic
    let outcome ← post request
    conclude settings ctx requestRetries payload start outcome

/-- `deliver_webhook`, the attempt that Celery runs with the given number of retries. -/
def deliverWebhook (lib : Primitives) (settings : Settings) (job : Job) (retries : Nat) :
    Delivery TaskEnd := do
  match ← getEnabled with
  | .error e => return .raised e
  | .ok none => return .returned -- no longer exists or is disabled; dropped
  | .ok (some endpoint) =>
    let attemptNumber := retries + 1
    match shapeAndCheck (job.rawPayload retries) endpoint with
    | .error e => return .raised e
    | .ok (payload, shouldSend) =>
      let ctx : AttemptContext :=
        { endpoint, event := job.event, correlationId := job.correlationId, attemptNumber,
          fingerprint := payloadFingerprint lib payload }
      if !shouldSend then
        recordThen settings ctx .skipped {} (return .returned)
      else
        let (acquired, endpoint) ← gate endpoint attemptNumber
        if !acquired then
          recordThen settings ctx .circuitOpen {} (return .returned)
        else
          sendAttempt lib settings { ctx with endpoint } retries payload

end WebhookRelay
