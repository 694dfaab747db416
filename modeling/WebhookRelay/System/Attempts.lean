import WebhookRelay.Delivery.Accounting
import WebhookRelay.Delivery.Request
import WebhookRelay.Model.Workers

/-!
# What one attempt does to the books

An attempt drops its message, writes one row or raises. `AttemptProgress.course` says which
operations an attempt performs when; every attempt keeps to it, whatever the answers are. At
most one request is sent, and the row tells how it ended, or why none was sent. A row is reported
once, right after it was written, and a retry is asked for after a row that says so. A failure is
counted once, after its row, and the circuit is opened when the count that was read back has
reached the threshold.
-/

namespace WebhookRelay

open Interleaving Program

/-! ## Rows -/

/-- What `_record_attempt` reports of a row. -/
def WebhookDeliveryAttempt.metric (attempt : WebhookDeliveryAttempt) : DeliveryMetric where
  status := attempt.status
  endpointId := attempt.endpointId
  event := attempt.event
  correlationId := attempt.correlationId
  httpStatusCode := attempt.httpStatusCode

/-- The row is one of the attempt that runs for the message. -/
structure Message.Writes (message : Message) (attempt : WebhookDeliveryAttempt) : Prop where
  event : attempt.event = message.event
  correlationId : attempt.correlationId = message.correlationId
  attemptNumber : attempt.attemptNumber = message.retries + 1

/-- The status code of the response, if there was one. -/
def PostOutcome.statusCode : PostOutcome → Option Nat
  | .response statusCode _ => some statusCode
  | _ => none

/-- What is recorded of the text of a failure. -/
def PostOutcome.report : PostOutcome → String
  | .response statusCode text => if statusCode < 400 then "" else slice 2000 text
  | .connectionError message | .timeout message | .otherException message => message

/-- A copy of the row, which may differ from it in its circuit only. -/
def WebhookEndpoint.CopyOf (copy row : WebhookEndpoint) : Prop :=
  copy = { row with
    circuitState := copy.circuitState
    consecutiveFailures := copy.consecutiveFailures
    circuitOpenedAt := copy.circuitOpenedAt }

theorem WebhookEndpoint.CopyOf.pk {copy row : WebhookEndpoint} (h : copy.CopyOf row) :
    copy.pk = row.pk := by
  rw [CopyOf] at h
  rw [h]

theorem WebhookEndpoint.CopyOf.webhookUrl {copy row : WebhookEndpoint} (h : copy.CopyOf row) :
    copy.webhookUrl = row.webhookUrl := by
  rw [CopyOf] at h
  rw [h]

theorem WebhookEndpoint.CopyOf.maxRetries {copy row : WebhookEndpoint} (h : copy.CopyOf row) :
    copy.maxRetries = row.maxRetries := by
  rw [CopyOf] at h
  rw [h]

theorem WebhookEndpoint.CopyOf.threshold {copy row : WebhookEndpoint} (h : copy.CopyOf row) :
    copy.circuitBreakerFailureThreshold = row.circuitBreakerFailureThreshold := by
  rw [CopyOf] at h
  rw [h]

theorem WebhookEndpoint.CopyOf.retainPayloadSnapshot {copy row : WebhookEndpoint}
    (h : copy.CopyOf row) : copy.retainPayloadSnapshot = row.retainPayloadSnapshot := by
  rw [CopyOf] at h
  rw [h]

/-- What has become of an attempt. -/
inductive Fate where
  | dropped
  | recorded (status : AttemptStatus)
  deriving DecidableEq

/-- How far an attempt has come. -/
structure AttemptProgress where
  /-- the row as it was loaded -/
  loaded : Option WebhookEndpoint := none
  /-- how the request ended, if it was sent -/
  outcome : Option PostOutcome := none
  fate : Option Fate := none
  /-- what is still to be reported -/
  unreported : Option DeliveryMetric := none
  /-- the failure was counted -/
  counted : Bool := false
  /-- the count of failures, as it was read back -/
  reread : Option Nat := none

namespace AttemptProgress

def track (progress : AttemptProgress) : Event relay → AttemptProgress
  | ⟨.getEnabled, .ok none⟩ => { progress with fate := some .dropped }
  | ⟨.getEnabled, .ok (some endpoint)⟩ => { progress with loaded := some endpoint }
  | ⟨.createAttempt attempt, _⟩ =>
    { progress with fate := some (.recorded attempt.status), unreported := some attempt.metric }
  | ⟨.sendSignal _, _⟩ => { progress with unreported := none }
  | ⟨.post _, outcome⟩ => { progress with outcome := some outcome }
  | ⟨.incrementFailures, _⟩ => { progress with counted := true }
  | ⟨.refreshFailures, failures⟩ => { progress with reread := some failures }
  | _ => progress

/-- The request carries the payload of the message as the endpoint's lists leave it, and goes to
the endpoint's URL. -/
def Carries (lib : Primitives) (message : Message) (endpoint : WebhookEndpoint)
    (request : Request) : Prop :=
  request.url = endpoint.webhookUrl ∧ ∃ payload,
    shapeAndCheck message.rawPayload endpoint = .ok (payload, true) ∧
      request.data = serializePayload lib payload

/-- The row tells how the request with this payload ended. -/
structure Tells (message : Message) (endpoint : WebhookEndpoint) (payload : Payload)
    (outcome : PostOutcome) (attempt : WebhookDeliveryAttempt) : Prop where
  status : (verdict endpoint.maxRetries message.retries none outcome).status? =
    some attempt.status
  httpStatusCode : attempt.httpStatusCode = outcome.statusCode
  errorMessage : attempt.errorMessage = slice 4000 outcome.report
  payloadSnapshot : attempt.payloadSnapshot =
    if attempt.status = .exhausted ∧ endpoint.retainPayloadSnapshot then some payload else none

/-- The row tells what came of the payload: it was filtered out, the breaker of the endpoint
refused it, or its request ended in this way. -/
inductive Explains (message : Message) (endpoint : WebhookEndpoint) (payload : Payload)
    (shouldSend : Bool) : Option PostOutcome → WebhookDeliveryAttempt → Prop where
  | filtered {attempt : WebhookDeliveryAttempt} : shouldSend = false →
      attempt.status = .skipped → Explains message endpoint payload shouldSend none attempt
  | refused {attempt : WebhookDeliveryAttempt} : shouldSend → message.retries = 0 →
      endpoint.circuitBreakerEnabled → endpoint.circuitState ≠ .closed →
      attempt.status = .circuitOpen → Explains message endpoint payload shouldSend none attempt
  | answered {attempt : WebhookDeliveryAttempt} {outcome : PostOutcome} : shouldSend →
      Tells message endpoint payload outcome attempt →
      Explains message endpoint payload shouldSend (some outcome) attempt

/-- The row of the audit trail is about the endpoint as it was loaded and the payload as its lists
leave it, and tells what came of it. -/
structure Records (lib : Primitives) (message : Message) (endpoint : WebhookEndpoint)
    (outcome : Option PostOutcome) (attempt : WebhookDeliveryAttempt) : Prop where
  endpointId : attempt.endpointId = endpoint.pk
  explained : ∃ payload shouldSend,
    shapeAndCheck message.rawPayload endpoint = .ok (payload, shouldSend) ∧
      attempt.payloadFingerprint = payloadFingerprint lib payload ∧
      Explains message endpoint payload shouldSend outcome attempt

theorem Records.fingerprint {lib : Primitives} {message : Message} {endpoint : WebhookEndpoint}
    {outcome : Option PostOutcome} {attempt : WebhookDeliveryAttempt}
    (h : Records lib message endpoint outcome attempt) : ∃ payload shouldSend,
      shapeAndCheck message.rawPayload endpoint = .ok (payload, shouldSend) ∧
        attempt.payloadFingerprint = payloadFingerprint lib payload := by
  obtain ⟨payload, shouldSend, hshape, hfingerprint, -⟩ := h.explained
  exact ⟨payload, shouldSend, hshape, hfingerprint⟩

/-- A retry is announced only while the endpoint allows more attempts. -/
theorem Records.retrying {lib : Primitives} {message : Message} {endpoint : WebhookEndpoint}
    {outcome : Option PostOutcome} {attempt : WebhookDeliveryAttempt}
    (h : Records lib message endpoint outcome attempt) (hstatus : attempt.status = .retrying) :
    message.retries + 1 < endpoint.maxRetries := by
  obtain ⟨payload, shouldSend, -, -, hexplains⟩ := h.explained
  cases hexplains with
  | filtered _ hskipped => cases hskipped.symm.trans hstatus
  | refused _ _ _ _ hrefused => cases hrefused.symm.trans hstatus
  | @answered attempt outcome _ htells =>
    have hverdict := htells.status.trans (congrArg some hstatus)
    by_contra hless
    rw [verdict, if_neg hless] at hverdict
    split at hverdict
    · cases hverdict
    · split at hverdict <;> cases hverdict

/-- The operations of an attempt for the message. The count of failures, which may be gone, is
read back only when nothing is left to report and no retry to be asked for. -/
def permits (lib : Primitives) (message : Message) (progress : AttemptProgress) : Op → Prop
  | .getEnabled => progress = {}
  | .createAttempt attempt => progress.fate = none ∧ progress.unreported = none ∧
      (∃ endpoint, progress.loaded = some endpoint ∧
        Records lib message endpoint progress.outcome attempt) ∧
      message.Writes attempt
  | .sendSignal metric => progress.unreported = some metric
  | .post request => progress.fate = none ∧ progress.outcome = none ∧
      ∃ endpoint, progress.loaded = some endpoint ∧ Carries lib message endpoint request
  | .incrementFailures => progress.fate = some (.recorded .exhausted) ∧ progress.counted = false
  | .refreshFailures => progress.unreported = none ∧
      ∃ status, progress.fate = some (.recorded status) ∧ status ≠ .retrying
  | .openCircuit _ => ∃ endpoint failures, progress.loaded = some endpoint ∧
      progress.reread = some failures ∧ endpoint.circuitBreakerFailureThreshold ≤ failures
  | _ => True

def course (lib : Primitives) (message : Message) : Discipline relay AttemptProgress :=
  ⟨track, permits lib message⟩

/-- How an attempt ends. -/
structure Ended (message : Message) (progress : AttemptProgress) (finish : TaskEnd) : Prop where
  reported : progress.unreported = none
  returned : finish = .returned →
    ∃ fate, progress.fate = some fate ∧ fate ≠ .recorded .retrying
  retry : ∀ retries countdown, finish = .retry retries countdown →
    progress.fate = some (.recorded .retrying) ∧ retries = message.retries + 1 ∧
      progress.loaded.isSome
  raised : ∀ error, finish = .raised error → progress.fate = none

theorem ended_returned {message : Message} {progress : AttemptProgress} {fate : Fate}
    (hreported : progress.unreported = none) (hfate : progress.fate = some fate)
    (hfinal : fate ≠ .recorded .retrying) : progress.Ended message .returned :=
  ⟨hreported, fun _ => ⟨fate, hfate, hfinal⟩, by simp, by simp⟩

theorem ended_raised {message : Message} {progress : AttemptProgress} {error : PyError}
    (hreported : progress.unreported = none) (hfate : progress.fate = none) :
    progress.Ended message (.raised error) :=
  ⟨hreported, by simp, by simp, fun _ _ => hfate⟩

/-! ## The parts of an attempt -/

variable {lib : Primitives} {settings : Settings} {message : Message}
  {progress : AttemptProgress} {row : WebhookEndpoint} {α β : Type}
  {post : AttemptProgress → β → Prop}

/-- The row was loaded and the request has ended like this, and nothing is written yet. -/
structure Pending (progress : AttemptProgress) (row : WebhookEndpoint)
    (outcome : Option PostOutcome) : Prop where
  loaded : progress.loaded = some row
  outcome : progress.outcome = outcome
  fate : progress.fate = none
  unreported : progress.unreported = none
  uncounted : progress.counted = false

/-- The context is that of the attempt for the message, with a copy of the row and the payload as
the row's lists leave it. -/
structure Describes (lib : Primitives) (message : Message) (row : WebhookEndpoint)
    (payload : Payload) (shouldSend : Bool) (ctx : AttemptContext) : Prop where
  copy : ctx.endpoint.CopyOf row
  event : ctx.event = message.event
  correlationId : ctx.correlationId = message.correlationId
  attemptNumber : ctx.attemptNumber = message.retries + 1
  shaped : shapeAndCheck message.rawPayload row = .ok (payload, shouldSend)
  fingerprint : ctx.fingerprint = payloadFingerprint lib payload

variable {payload : Payload} {shouldSend : Bool} {ctx : AttemptContext}
  {outcome : Option PostOutcome}

/-- A row is written and reported, or the attempt ends without one. -/
theorem follows_recordThen {status : AttemptStatus} {details : AttemptDetails}
    {rest : Delivery TaskEnd} (h : progress.Pending row outcome)
    (hctx : Describes lib message row payload shouldSend ctx)
    (hexplains : Explains message row payload shouldSend outcome (attemptRow ctx status details))
    (hrest : rest.Follows (course lib message) (Ended message)
      { progress with fate := some (.recorded status), unreported := none }) :
    (recordThen settings ctx status details rest).Follows (course lib message) (Ended message)
      progress := by
  cases hwrite : (attemptRow ctx status details).writeError? with
  | some e =>
    rw [recordThen_raises hwrite]
    exact ended_raised h.unreported h.fate
  | none =>
  rw [recordThen_eq hwrite]
  have hrecords : Records lib message row progress.outcome (attemptRow ctx status details) :=
    ⟨hctx.copy.pk, payload, shouldSend, hctx.shaped, hctx.fingerprint, h.outcome ▸ hexplains⟩
  have hwrites : message.Writes (attemptRow ctx status details) :=
    ⟨hctx.event, hctx.correlationId, hctx.attemptNumber⟩
  refine ⟨⟨h.fate, h.unreported, ⟨row, h.loaded, hrecords⟩, hwrites⟩, fun _ => ⟨rfl, fun _ => ?_⟩⟩
  beta_reduce
  split
  · exact ⟨trivial, fun _ => hrest⟩
  · exact hrest

/-- A failure is counted, and the circuit opened if the count has reached the threshold. -/
theorem follows_recordCircuitFailure {endpoint : WebhookEndpoint} (hcopy : endpoint.CopyOf row)
    (hloaded : progress.loaded = some row) (hreported : progress.unreported = none)
    (hfate : progress.fate = some (.recorded .exhausted)) (huncounted : progress.counted = false) :
    (endpoint.recordCircuitFailure >>= fun _ => return .returned).Follows (course lib message)
      (Ended message) progress := by
  have hfinal : Fate.recorded .exhausted ≠ .recorded .retrying := by simp
  rw [WebhookEndpoint.recordCircuitFailure_bind]
  refine ⟨⟨hfate, huncounted⟩, fun _ => ⟨⟨hreported, _, hfate, by simp⟩,
    fun (failures : Nat) => ?_⟩⟩
  beta_reduce
  split
  · next hreached =>
    refine ⟨trivial, fun _ => ⟨⟨row, failures, hloaded, rfl, hcopy.threshold ▸ hreached⟩,
      fun _ => ?_⟩⟩
    exact ended_returned hreported hfate hfinal
  · exact ended_returned hreported hfate hfinal

/-- The row that is written about an outcome tells how the request ended. -/
theorem Describes.tells {outcome : PostOutcome} {status : AttemptStatus} {details : AttemptDetails}
    (hctx : Describes lib message row payload shouldSend ctx)
    (hstatus : (verdict row.maxRetries message.retries none outcome).status? = some status)
    (hcode : details.httpStatusCode = outcome.statusCode)
    (herror : details.errorMessage = outcome.report)
    (hpayload : status = .exhausted → details.payload = some payload) :
    Tells message row payload outcome (attemptRow ctx status details) where
  status := hstatus
  httpStatusCode := hcode
  errorMessage := congrArg (slice 4000) herror
  payloadSnapshot := by
    simp only [attemptRow, hctx.copy.retainPayloadSnapshot]
    by_cases hexhausted : status = .exhausted
    · simp [hexhausted, hpayload]
    · simp [hexhausted]

/-- The details are those of the outcome. -/
structure Details (payload : Payload) (outcome : PostOutcome) (details : AttemptDetails) :
    Prop where
  httpStatusCode : details.httpStatusCode = outcome.statusCode
  errorMessage : details.errorMessage = outcome.report
  payload : outcome.succeeded = false → details.payload = some payload

/-- An exhausted delivery is recorded and counted. -/
theorem follows_exhausted {outcome : PostOutcome} {details : AttemptDetails}
    (h : progress.Pending row (some outcome)) (hctx : Describes lib message row payload true ctx)
    (hverdict : verdict row.maxRetries message.retries none outcome = .exhausted)
    (hfailed : outcome.succeeded = false) (hdetails : Details payload outcome details) :
    (recordThen settings ctx .exhausted details do
        let _ ← ctx.endpoint.recordCircuitFailure
        return .returned).Follows
      (course lib message) (Ended message) progress := by
  have htells : Tells message row payload outcome (attemptRow ctx .exhausted details) :=
    hctx.tells (by rw [hverdict]; rfl) hdetails.httpStatusCode hdetails.errorMessage
      fun _ => hdetails.payload hfailed
  exact follows_recordThen h hctx (.answered rfl htells)
    (follows_recordCircuitFailure hctx.copy h.loaded rfl rfl h.uncounted)

theorem follows_failOrRetry {outcome : PostOutcome} {details : AttemptDetails}
    (h : progress.Pending row (some outcome)) (hctx : Describes lib message row payload true ctx)
    (hretryable : outcome.retryable) (hdetails : Details payload outcome details)
    (exc : PyError) :
    (failOrRetry settings ctx message.retries exc details).Follows (course lib message)
      (Ended message) progress := by
  have hnumber := hctx.attemptNumber
  have hlimit := hctx.copy.maxRetries
  rw [failOrRetry]
  split
  · next hretry =>
    have hverdict : verdict row.maxRetries message.retries none outcome = .retried := by
      rw [verdict, if_pos hretryable, if_pos (by omega)]
    have hwithin : ¬ message.retries + 1 > ctx.endpoint.maxRetries := by omega
    have hloaded : progress.loaded.isSome := Option.isSome_of_eq_some h.loaded
    have htells : Tells message row payload outcome
        (attemptRow ctx .retrying { details with payload := none }) :=
      hctx.tells (by rw [hverdict]; rfl) hdetails.httpStatusCode hdetails.errorMessage (by simp)
    refine follows_recordThen h hctx (.answered rfl htells) ?_
    simp only [taskRetry, if_neg hwithin]
    exact ⟨rfl, by simp, by rintro _ _ ⟨⟩; exact ⟨rfl, rfl, hloaded⟩, by simp⟩
  · next hlast =>
    have hverdict : verdict row.maxRetries message.retries none outcome = .exhausted := by
      rw [verdict, if_pos hretryable, if_neg (by omega), Verdict.exhaustedUnless]
    have hfailed : outcome.succeeded = false := by
      by_contra hsucceeded
      rw [PostOutcome.not_retryable_of_succeeded (by simpa using hsucceeded)] at hretryable
      cases hretryable
    exact follows_exhausted h hctx hverdict hfailed hdetails

theorem follows_conclude {start : Time} {outcome : PostOutcome}
    (h : progress.Pending row (some outcome))
    (hctx : Describes lib message row payload true ctx) :
    (conclude settings ctx message.retries payload start outcome).Follows (course lib message)
      (Ended message) progress := by
  cases outcome with
  | otherException text => exact ended_raised h.unreported h.fate
  | connectionError text | timeout text =>
    exact ⟨trivial, fun stop => follows_failOrRetry h hctx rfl ⟨rfl, rfl, fun _ => rfl⟩ _⟩
  | response statusCode text =>
    refine ⟨trivial, fun (stop : Time) => ?_⟩
    change Follows _ _ (ite _ _ _) progress
    split
    · next hretryable =>
      have hbad : ¬ statusCode < 400 := by
        have hcode : 500 ≤ statusCode ∨ statusCode = 429 := by simpa using hretryable
        omega
      exact follows_failOrRetry h hctx (by simpa [PostOutcome.retryable] using hretryable)
        ⟨rfl, (if_neg hbad).symm, fun _ => rfl⟩ _
    next hfinal =>
    have hfinal : (PostOutcome.response statusCode text).retryable = false := by
      simpa [PostOutcome.retryable] using hfinal
    split
    · next hbad =>
      have hfailed : (PostOutcome.response statusCode text).succeeded = false := by
        simpa [PostOutcome.succeeded] using hbad
      exact follows_exhausted h hctx
        (by simp [verdict, hfinal, hfailed, Verdict.exhaustedUnless]) hfailed
        ⟨rfl, (if_neg (by omega)).symm, fun _ => rfl⟩
    · next hgood =>
      have hsucceeded : (PostOutcome.response statusCode text).succeeded := by
        simpa [PostOutcome.succeeded] using hgood
      have htells : Tells message row payload (.response statusCode text)
          (attemptRow ctx .succeeded
            { durationMs := some ((stop - start) / 1000), httpStatusCode := some statusCode }) :=
        hctx.tells (by simp [verdict, hfinal, hsucceeded, Verdict.status?]) rfl
          (if_pos (by omega)).symm (by simp)
      refine follows_recordThen h hctx (.answered rfl htells) ?_
      exact ⟨trivial, fun _ => ended_returned rfl rfl (by simp)⟩

/-- The rule of a program that only asks the secrets manager. -/
abbrev asking : Discipline relay Unit := only fun op => ∃ secretId, op = .getSecretValue secretId

/-- To ask for a secret changes nothing. -/
theorem follows_asking {p : Delivery α} {f : α → Delivery β}
    (h : p.Follows asking (fun _ _ => True) ())
    (hf : ∀ a, (f a).Follows (course lib message) post progress) :
    (p >>= f).Follows (course lib message) post progress := by
  induction p with
  | ret value => exact hf value
  | call op rest ih =>
    obtain ⟨⟨secretId, rfl⟩, hrest⟩ := h
    exact ⟨trivial, fun answer => ih answer (hrest answer)⟩

theorem asking_effectiveSecret (settings : Settings) (endpoint : WebhookEndpoint) :
    (endpoint.effectiveSecret settings).Follows asking (fun _ _ => True) () := by
  cases hbackend : getSecretBackend settings with
  | error e => simp [WebhookEndpoint.effectiveSecret, hbackend]
  | ok backend =>
    have hasks := effectiveSecret_asks hbackend endpoint
    generalize endpoint.effectiveSecret settings = p at hasks
    cases hasks with
    | ready value => trivial
    | ask secretId value => exact ⟨⟨secretId, rfl⟩, fun _ => trivial⟩

/-- Building the request changes nothing. -/
theorem follows_buildRequest (endpoint : WebhookEndpoint) (correlationId : String)
    (payload : Payload) : (buildRequest lib settings endpoint correlationId payload).Follows
      (course lib message) (fun progress' result => progress' = progress ∧
        ∀ request, result = .ok request →
          request.url = endpoint.webhookUrl ∧ request.data = serializePayload lib payload)
      progress := by
  rw [buildRequest_eq]
  split
  · exact ⟨rfl, fun _ h => by cases h⟩
  · next headers _ =>
    refine follows_asking (asking_effectiveSecret settings endpoint) fun secret => ⟨rfl, ?_⟩
    cases secret with
    | error e => exact fun _ h => by cases h
    | ok secret =>
      rintro request ⟨⟩
      exact ⟨rfl, rfl⟩

theorem follows_sendAttempt (h : progress.Pending row none)
    (hctx : Describes lib message row payload true ctx) :
    (sendAttempt lib settings ctx message.retries payload).Follows (course lib message)
      (Ended message) progress := by
  refine (follows_buildRequest ctx.endpoint ctx.correlationId payload).bind
    fun progress' result ⟨hsame, hrequest⟩ => ?_
  subst hsame
  cases result with
  | error e => exact ended_raised h.unreported h.fate
  | ok request =>
    obtain ⟨hto, hdata⟩ := hrequest request rfl
    have hcarries : Carries lib message row request :=
      ⟨hto.trans hctx.copy.webhookUrl, payload, hctx.shaped, hdata⟩
    exact ⟨trivial, fun start => ⟨⟨h.fate, h.outcome, row, h.loaded, hcarries⟩, fun outcome =>
      follows_conclude ⟨h.loaded, rfl, h.fate, h.unreported, h.uncounted⟩ hctx⟩⟩

/-- The breaker check changes nothing. The copy that it returns is of the same row, and it refuses
only when the circuit of the row is not closed. -/
theorem follows_gate {endpoint : WebhookEndpoint} {attemptNumber : Nat}
    {f : Bool × WebhookEndpoint → Delivery β}
    (hf : ∀ acquired copy, copy.CopyOf endpoint →
      (acquired = false → attemptNumber = 1 ∧ endpoint.circuitBreakerEnabled ∧
        endpoint.circuitState ≠ .closed) →
      (f (acquired, copy)).Follows (course lib message) post progress) :
    (gate endpoint attemptNumber >>= f).Follows (course lib message) post progress := by
  have hsame : endpoint.CopyOf endpoint := rfl
  rw [gate]
  split
  · next hfirst =>
    rw [WebhookEndpoint.tryAcquireDeliverySlot_bind]
    split
    · exact hf true endpoint hsame (by simp)
    next hchecked =>
    have hrefuses : attemptNumber = 1 ∧ endpoint.circuitBreakerEnabled ∧
        endpoint.circuitState ≠ .closed := ⟨hfirst, by simpa using hchecked⟩
    repeat' split
    · exact hf false endpoint hsame fun _ => hrefuses
    · exact hf true endpoint hsame (by simp)
    · refine ⟨trivial, fun (time : Time) => ?_⟩
      beta_reduce
      split
      · exact hf false endpoint hsame fun _ => hrefuses
      · refine ⟨trivial, fun (won : Bool) => ?_⟩
        cases won with
        | false => exact hf false endpoint hsame fun _ => hrefuses
        | true => exact hf true endpoint.halfOpened rfl (by simp)
  · exact hf true endpoint hsame (by simp)

/-! ## Every attempt -/

theorem follows_deliverWebhook (lib : Primitives) (settings : Settings) (message : Message) :
    (deliverWebhook lib settings message.job message.retries).Follows (course lib message)
      (Ended message) {} := by
  simp only [deliverWebhook, Delivery.getEnabled, call_bind, ret_bind]
  refine ⟨rfl, fun answer => ?_⟩
  rcases answer with e | _ | endpoint
  · exact ended_raised rfl rfl
  · exact ended_returned rfl rfl (by simp)
  · simp only
    have hpending : (track {} ⟨.getEnabled, .ok (some endpoint)⟩).Pending endpoint none :=
      ⟨rfl, rfl, rfl, rfl, rfl⟩
    cases hshape : shapeAndCheck (message.job.rawPayload message.retries) endpoint with
    | error e => exact ended_raised rfl rfl
    | ok shaped =>
      obtain ⟨payload, shouldSend⟩ := shaped
      cases shouldSend with
      | false =>
        exact follows_recordThen hpending ⟨rfl, rfl, rfl, rfl, hshape, rfl⟩ (.filtered rfl rfl)
          (ended_returned rfl rfl (by simp))
      | true =>
        simp only [Bool.not_true, Bool.false_eq_true, if_false]
        refine follows_gate fun acquired copy hcopy hrefuses => ?_
        cases acquired with
        | false =>
          obtain ⟨hfirst, henabled, hcircuit⟩ := hrefuses rfl
          exact follows_recordThen hpending ⟨rfl, rfl, rfl, rfl, hshape, rfl⟩
            (.refused rfl (by omega) henabled hcircuit rfl) (ended_returned rfl rfl (by simp))
        | true => exact follows_sendAttempt hpending ⟨hcopy, rfl, rfl, rfl, hshape, rfl⟩

end AttemptProgress

end WebhookRelay
