import WebhookRelay.Library.Program
import WebhookRelay.Model.Security

/-!
# The endpoint row and its circuit breaker

The records of `models.py` with the fields the delivery task reads, the operations the
task performs on the outside (one constructor per database statement, clock reading or
network call) and the three circuit-breaker methods as programs over them.

All statements of a delivery are filtered on the primary key of one endpoint, so the
operations name no row. Times are in microseconds, the resolution of `datetime`. A method
returns the in-memory copy as it leaves it, next to its result.
-/

namespace WebhookRelay

open Interleaving

/-- Microseconds. -/
abbrev Time := Int

inductive CircuitState where
  | closed | «open» | halfOpen
  deriving DecidableEq, Repr

/-- The fields of `WebhookEndpoint` that a delivery reads, with the model's defaults.
Secrets are the plaintext that `EncryptedCharField` gives when the row is loaded. -/
structure WebhookEndpoint where
  pk : Nat
  webhookUrl : String
  enabled : Bool := true
  signingSecret : String := ""
  signingSecretPrevious : String := ""
  secretBackendReference : Option String
  customHeaders : Json := .obj []
  onlyOnPassing : Bool := true
  timeoutSeconds : Nat := 10
  maxRetries : Nat := 5
  retainPayloadSnapshot : Bool := false
  circuitBreakerEnabled : Bool := true
  circuitBreakerFailureThreshold : Nat := 5
  circuitBreakerCooldownSeconds : Nat := 300
  circuitState : CircuitState := .closed
  consecutiveFailures : Nat := 0
  circuitOpenedAt : Option Time := none
  piiAllowlist : Json := .arr []
  piiDenylist : Json := .arr []

/-- An endpoint as the admin saves it first, with the model's defaults. -/
def newEndpoint : WebhookEndpoint where
  pk := 1
  webhookUrl := "https://receiver.example.com/hook"
  secretBackendReference := some "6f1c"

/-- A correlation id in examples. -/
def exampleId : String := "8f14e45f-ceea-467f-a4cf-3f3b1f6b3b1c"

/-- The cooldown as a difference of clock readings. -/
def WebhookEndpoint.cooldown (endpoint : WebhookEndpoint) : Time :=
  endpoint.circuitBreakerCooldownSeconds * 1000000

/-- `WebhookDeliveryAttempt.Status`. -/
inductive AttemptStatus where
  | succeeded | retrying | exhausted | skipped | circuitOpen
  deriving DecidableEq, Repr

/-- The stored value of a status. -/
def AttemptStatus.value : AttemptStatus → String
  | .succeeded => "succeeded"
  | .retrying => "retrying"
  | .exhausted => "exhausted"
  | .skipped => "skipped"
  | .circuitOpen => "circuit_open"

/-- A row of the audit trail. -/
structure WebhookDeliveryAttempt where
  endpointId : Nat
  event : String
  correlationId : String
  attemptNumber : Nat
  status : AttemptStatus
  httpStatusCode : Option Nat
  durationMs : Option Int
  errorMessage : String
  payloadFingerprint : String
  payloadSnapshot : Option Payload

/-- How writing a value to a `JSONField` fails, if it does: the field has no encoder for objects
of other classes, and the database takes no number that JSON does not have. -/
def Payload.writeError? (payload : Payload) : Option PyError :=
  if (Json.obj payload.members).hasLeaf Json.isOther then some .typeError
  else if (Json.obj payload.members).hasLeaf Json.isNonFinite then some .dataError
  else none

/-- How writing the row fails, if it does. -/
def WebhookDeliveryAttempt.writeError? (attempt : WebhookDeliveryAttempt) : Option PyError :=
  attempt.payloadSnapshot.bind Payload.writeError?

/-- What the signal `webhook_delivery_recorded` carries. -/
structure DeliveryMetric where
  status : AttemptStatus
  endpointId : Nat
  event : String
  correlationId : String
  httpStatusCode : Option Nat

/-- The arguments of `requests.post`. -/
structure Request where
  url : String
  data : String
  headers : Members
  timeout : Nat

/-- How `requests.post` ends: with a response, with one of the two exceptions the task
handles, or with any other exception of the library. -/
inductive PostOutcome where
  | response (statusCode : Nat) (text : String)
  | connectionError (message : String)
  | timeout (message : String)
  | otherException (message : String)

/-- How `get_secret_value` ends. -/
inductive SecretsAnswer where
  | found (secretString : Option String)
  | resourceNotFound
  | failed

/-! ## The operations of a delivery -/

inductive Op where
  /-- `objects.get(pk=…, enabled=True)`, `none` when it raises `DoesNotExist`, or the exception
  that `from_db_value` raises -/
  | getEnabled
  /-- `timezone.now()` -/
  | now
  /-- `time.monotonic()` -/
  | monotonic
  /-- `filter(pk=…, circuit_state=OPEN).update(circuit_state=HALF_OPEN)` -/
  | setHalfOpen
  /-- `filter(pk=…).update(circuit_state=CLOSED, consecutive_failures=0, …)` -/
  | resetCircuit
  /-- `filter(pk=…).update(consecutive_failures=F("consecutive_failures") + 1)` -/
  | incrementFailures
  /-- `refresh_from_db(fields=["consecutive_failures"])` -/
  | refreshFailures
  /-- `filter(pk=…).update(circuit_state=OPEN, circuit_opened_at=…)` -/
  | openCircuit (openedAt : Time)
  /-- `WebhookDeliveryAttempt.objects.create(…)` of a row that can be written -/
  | createAttempt (attempt : WebhookDeliveryAttempt)
  /-- `webhook_delivery_recorded.send(…)` -/
  | sendSignal (metric : DeliveryMetric)
  /-- `client.incr(name)` -/
  | incr (name : String)
  /-- `client.get_secret_value(SecretId=…)` -/
  | getSecretValue (secretId : String)
  /-- `requests.post(…)` -/
  | post (request : Request)

@[reducible] def Op.Answer : Op → Type
  | .getEnabled => Except PyError (Option WebhookEndpoint)
  | .now | .monotonic => Time
  | .setHalfOpen => Bool
  | .refreshFailures => Nat
  | .getSecretValue _ => SecretsAnswer
  | .post _ => PostOutcome
  | _ => Unit

abbrev relay : Signature := ⟨Op, Op.Answer⟩

/-- A program of the delivery task. -/
abbrev Delivery := Program relay

namespace Delivery

@[simp] def getEnabled : Delivery (Except PyError (Option WebhookEndpoint)) :=
  .call .getEnabled .ret
@[simp] def now : Delivery Time := .call .now .ret
@[simp] def monotonic : Delivery Time := .call .monotonic .ret
@[simp] def setHalfOpen : Delivery Bool := .call .setHalfOpen .ret
@[simp] def resetCircuit : Delivery Unit := .call .resetCircuit .ret
@[simp] def incrementFailures : Delivery Unit := .call .incrementFailures .ret
@[simp] def refreshFailures : Delivery Nat := .call .refreshFailures .ret
@[simp] def openCircuit (openedAt : Time) : Delivery Unit := .call (.openCircuit openedAt) .ret
@[simp] def createAttempt (attempt : WebhookDeliveryAttempt) : Delivery Unit :=
  .call (.createAttempt attempt) .ret
@[simp] def sendSignal (metric : DeliveryMetric) : Delivery Unit :=
  .call (.sendSignal metric) .ret
@[simp] def incr (name : String) : Delivery Unit := .call (.incr name) .ret
@[simp] def getSecretValue (secretId : String) : Delivery SecretsAnswer :=
  .call (.getSecretValue secretId) .ret
@[simp] def post (request : Request) : Delivery PostOutcome := .call (.post request) .ret

end Delivery

open Delivery

/-! ## The circuit breaker -/

namespace WebhookEndpoint

/-- The copy, or the row, with the circuit half-open. -/
def halfOpened (self : WebhookEndpoint) : WebhookEndpoint :=
  { self with circuitState := .halfOpen }

/-- The copy, or the row, with the breaker fully reset. -/
def reset (self : WebhookEndpoint) : WebhookEndpoint :=
  { self with circuitState := .closed, consecutiveFailures := 0, circuitOpenedAt := none }

/-- The copy, or the row, with the given count of failures. -/
def counting (self : WebhookEndpoint) (failures : Nat) : WebhookEndpoint :=
  { self with consecutiveFailures := failures }

@[simp] theorem counting_consecutiveFailures (self : WebhookEndpoint) (failures : Nat) :
    (self.counting failures).consecutiveFailures = failures := rfl

/-- The copy, or the row, with the circuit opened at the given time. -/
def opened (self : WebhookEndpoint) (openedAt : Time) : WebhookEndpoint :=
  { self with circuitState := .open, circuitOpenedAt := some openedAt }

/-- `try_acquire_delivery_slot`. -/
def tryAcquireDeliverySlot (self : WebhookEndpoint) : Delivery (Bool × WebhookEndpoint) := do
  if !self.circuitBreakerEnabled || self.circuitState = .closed then
    return (true, self)
  if self.circuitState = .halfOpen then
    return (false, self) -- a trial delivery is already in flight
  match self.circuitOpenedAt with
  | none => return (true, self) -- inconsistent state: fails open
  | some openedAt =>
    let elapsed := (← now) - openedAt
    if elapsed < self.cooldown then
      return (false, self)
    if ← setHalfOpen then
      return (true, self.halfOpened)
    return (false, self)

/-- `record_circuit_success`. -/
def recordCircuitSuccess (self : WebhookEndpoint) : Delivery WebhookEndpoint := do
  resetCircuit
  return self.reset

/-- `record_circuit_failure`. -/
def recordCircuitFailure (self : WebhookEndpoint) : Delivery WebhookEndpoint := do
  incrementFailures
  let self := self.counting (← refreshFailures)
  if self.consecutiveFailures ≥ self.circuitBreakerFailureThreshold then
    let openedAt ← now
    openCircuit openedAt
    return self.opened openedAt
  return self

/-! ## The methods as trees of calls -/

section Trees

variable {α : Type} (self : WebhookEndpoint)

theorem recordCircuitSuccess_bind (f : WebhookEndpoint → Delivery α) :
    (self.recordCircuitSuccess >>= f) = .call .resetCircuit fun _ => f self.reset := rfl

theorem recordCircuitFailure_bind (f : WebhookEndpoint → Delivery α) :
    (self.recordCircuitFailure >>= f) =
      .call .incrementFailures fun _ => .call .refreshFailures fun failures =>
        if self.circuitBreakerFailureThreshold ≤ failures then
          .call .now fun openedAt => .call (.openCircuit openedAt) fun _ =>
            f ((self.counting failures).opened openedAt)
        else f (self.counting failures) := by
  simp only [recordCircuitFailure, incrementFailures, refreshFailures, Program.call_bind,
    Program.ret_bind]
  congr; funext _; congr; funext failures
  by_cases h : self.circuitBreakerFailureThreshold ≤ failures <;> simp [counting, h]

theorem tryAcquireDeliverySlot_bind (f : Bool × WebhookEndpoint → Delivery α) :
    (self.tryAcquireDeliverySlot >>= f) =
      if !self.circuitBreakerEnabled || self.circuitState = .closed then f (true, self)
      else if self.circuitState = .halfOpen then f (false, self)
      else match self.circuitOpenedAt with
        | none => f (true, self)
        | some openedAt => .call .now fun time =>
          if time - openedAt < self.cooldown then f (false, self)
          else .call .setHalfOpen fun won =>
            if won then f (true, self.halfOpened) else f (false, self) := by
  rw [tryAcquireDeliverySlot]
  repeat' split
  all_goals try rfl
  simp only [now, Program.call_bind, Program.ret_bind]
  congr; funext time
  split
  · rfl
  · simp only [setHalfOpen, Program.call_bind, Program.ret_bind]
    congr; funext won
    cases won <;> rfl

end Trees

end WebhookEndpoint

end WebhookRelay
