import WebhookRelay.Library.Broker
import WebhookRelay.Model.Celery

/-!
# The deployment

The tables, the message broker and the clock that the receivers, the workers, the commands and
the scheduled task of the plugin share, and the operations that they perform on them. A
statement of a delivery is performed on the endpoint that its message names; everything else
about it is as in `WebhookRelay.Model.Celery`, only that the row may be gone.

The rows of the endpoints are listed in the order of the model, which is by event and
description; the description itself is left out.
-/

namespace WebhookRelay

open Interleaving Messaging Dictionary

/-! ## The endpoints -/

/-- An endpoint with the event that it is subscribed to. -/
structure Subscription where
  event : String
  endpoint : WebhookEndpoint

/-- The table of the endpoints by primary key. -/
structure EndpointTable where
  rows : List (Nat × Subscription)
  keys_nodup : (keys rows).Nodup
  pk_eq : ∀ row ∈ rows, row.2.endpoint.pk = row.1

namespace EndpointTable

def empty : EndpointTable where
  rows := []
  keys_nodup := by simp [keys]
  pk_eq := by simp

def get? (table : EndpointTable) (pk : Nat) : Option WebhookEndpoint :=
  (table.rows.lookup pk).map Subscription.endpoint

/-- `filter(enabled=True, event=…).values_list("pk", flat=True)`. -/
def enabledFor (table : EndpointTable) (event : String) : List Nat :=
  keys (table.rows.filter fun row => row.2.endpoint.enabled && row.2.event = event)

/-- `filter(pk=…).update(…)`. -/
def update (table : EndpointTable) (pk : Nat) (f : WebhookEndpoint → WebhookEndpoint)
    (hf : ∀ endpoint, (f endpoint).pk = endpoint.pk) : EndpointTable where
  rows := modify table.rows pk fun row => { row with endpoint := f row.endpoint }
  keys_nodup := by simpa using table.keys_nodup
  pk_eq row h := by
    rcases mem_modify h with h | ⟨old, hold, rfl⟩
    · exact table.pk_eq row h
    · exact (hf old.endpoint).trans (table.pk_eq (pk, old) hold)

/-- `save()` of a row with this primary key, a new one or one that is there. -/
def save (table : EndpointTable) (pk : Nat) (row : Subscription) : EndpointTable where
  rows := set table.rows pk { row with endpoint := { row.endpoint with pk } }
  keys_nodup := nodup_keys_set table.keys_nodup pk _
  pk_eq row h := by
    rcases mem_set h with rfl | h
    · rfl
    · exact table.pk_eq row h

def delete (table : EndpointTable) (pk : Nat) : EndpointTable where
  rows := erase table.rows pk
  keys_nodup := nodup_keys_erase table.keys_nodup pk
  pk_eq row h := table.pk_eq row (List.mem_of_mem_filter h)

theorem pk_of_get? {table : EndpointTable} {pk : Nat} {endpoint : WebhookEndpoint}
    (h : table.get? pk = some endpoint) : endpoint.pk = pk := by
  obtain ⟨row, hrow, rfl⟩ := Option.map_eq_some_iff.mp h
  exact table.pk_eq _ (mem_of_lookup hrow)

theorem nodup_enabledFor (table : EndpointTable) (event : String) :
    (table.enabledFor event).Nodup :=
  table.keys_nodup.sublist (List.filter_sublist.map _)

@[simp] theorem get?_update (table : EndpointTable) (pk pk' : Nat)
    (f : WebhookEndpoint → WebhookEndpoint) (hf : ∀ endpoint, (f endpoint).pk = endpoint.pk) :
    (table.update pk f hf).get? pk' =
      if pk = pk' then (table.get? pk').map f else table.get? pk' := by
  simp only [get?, update, lookup_modify]
  split
  · rw [Option.map_map, Option.map_map]
    rfl
  · rfl

@[simp] theorem get?_save (table : EndpointTable) (pk pk' : Nat) (row : Subscription) :
    (table.save pk row).get? pk' =
      if pk = pk' then some { row.endpoint with pk } else table.get? pk' := by
  simp only [get?, save, lookup_set]
  split <;> rfl

@[simp] theorem get?_delete (table : EndpointTable) (pk pk' : Nat) :
    (table.delete pk).get? pk' = if pk = pk' then none else table.get? pk' := by
  simp only [get?, delete, lookup_erase]
  split <;> rfl

end EndpointTable

/-! ## Messages -/

/-- A message for the task `deliver_webhook`. -/
structure Message where
  endpointId : Nat
  event : String
  rawPayload : Payload
  correlationId : String
  retries : Nat := 0

/-- The deliveries that a message belongs to: those of one correlation id to one endpoint. -/
def Message.isFor (endpointId : Nat) (correlationId : String) (message : Message) : Bool :=
  message.endpointId = endpointId && message.correlationId = correlationId

/-- The exceptions of statements whose endpoint has been deleted. -/
inductive DatabaseError where
  | doesNotExist | integrityError
  deriving DecidableEq, Repr

/-- What Celery notes of a task that has ended; the message of a task whose retry could not be
published is rejected. -/
inductive TaskState where
  | success | retry | rejected
  | failure (error : DatabaseError ⊕ PyError)

/-- How the publication of a message ends. The exception of one that fails can come from before
the broker has the message or from after it. -/
inductive Publication where
  | confirmed | unconfirmed | refused
  deriving DecidableEq, Repr

/-- The broker has the message. -/
def Publication.arrives : Publication → Bool
  | .refused => false
  | _ => true

/-! ## The operations -/

/-- The answer to a statement of a delivery. There is no count to read back of an endpoint that
has been deleted, and no row of the audit trail can be created for it. -/
@[reducible] def Op.Reply : Op → Type
  | .refreshFailures => Option Nat
  | .createAttempt _ => Bool
  | op => op.Answer

/-- What a delivery makes of the answer. -/
def Op.read : (op : Op) → op.Reply → Except DatabaseError op.Answer
  | .refreshFailures, none => .error .doesNotExist
  | .refreshFailures, some failures => .ok failures
  | .createAttempt _, false => .error .integrityError
  | .createAttempt _, true => .ok ()
  | .getEnabled, answer | .now, answer | .monotonic, answer | .setHalfOpen, answer
  | .resetCircuit, answer | .incrementFailures, answer | .openCircuit _, answer
  | .sendSignal _, answer | .incr _, answer | .getSecretValue _, answer | .post _, answer =>
    .ok answer

/-- A row of the audit trail with the time of its creation. -/
structure AuditRow where
  created : Time
  attempt : WebhookDeliveryAttempt

inductive SystemOp where
  /-- `WebhookEndpoint.objects.filter(enabled=True, event=…).values_list("pk", flat=True)` -/
  | endpointIds (event : String)
  /-- `uuid.uuid4()` -/
  | uuid4
  /-- `timezone.now()` -/
  | now
  /-- `deliver_webhook.delay(…)`, or Celery publishing a retry -/
  | publish (message : Message)
  /-- a worker takes a message, if there is one -/
  | reserve
  /-- a worker acknowledges a message after the task has ended -/
  | acknowledge (tag : Nat) (message : Message) (state : TaskState)
  /-- the broker takes back a message that is not acknowledged -/
  | redeliver
  /-- an operation of the delivery of a message -/
  | statement (message : Message) (op : Op)
  /-- `filter(created__lt=…[, status=…]).count()` -/
  | countAttempts (cutoff : Time) (status : Option AttemptStatus)
  /-- `filter(created__lt=…[, status=…]).delete()` -/
  | deleteAttempts (cutoff : Time) (status : Option AttemptStatus)
  /-- the rows of the audit trail that a query selects -/
  | selectAttempts (selects : AuditRow → Bool)

@[reducible] def SystemOp.Answer : SystemOp → Type
  | .endpointIds _ => List Nat
  | .uuid4 => String
  | .now => Time
  | .reserve => Option (Nat × Message)
  | .redeliver => Option Message
  | .statement _ op => op.Reply
  | .countAttempts _ _ | .deleteAttempts _ _ => Nat
  | .selectAttempts _ => List WebhookDeliveryAttempt
  | .publish _ => Publication
  | .acknowledge _ _ _ => Unit

abbrev deployment : Signature := ⟨SystemOp, SystemOp.Answer⟩

/-- A program of a process of the deployment. -/
abbrev Process := Program deployment

namespace Process

@[simp] def endpointIds (event : String) : Process (List Nat) := .call (.endpointIds event) .ret
@[simp] def uuid4 : Process String := .call .uuid4 .ret
@[simp] def now : Process Time := .call .now .ret
@[simp] def publish (message : Message) : Process Publication := .call (.publish message) .ret
@[simp] def reserve : Process (Option (Nat × Message)) := .call .reserve .ret
@[simp] def acknowledge (tag : Nat) (message : Message) (state : TaskState) : Process Unit :=
  .call (.acknowledge tag message state) .ret
@[simp] def redeliver : Process (Option Message) := .call .redeliver .ret
@[simp] def countAttempts (cutoff : Time) (status : Option AttemptStatus) : Process Nat :=
  .call (.countAttempts cutoff status) .ret
@[simp] def deleteAttempts (cutoff : Time) (status : Option AttemptStatus) : Process Nat :=
  .call (.deleteAttempts cutoff status) .ret
@[simp] def selectAttempts (selects : AuditRow → Bool) : Process (List WebhookDeliveryAttempt) :=
  .call (.selectAttempts selects) .ret

end Process

/-! ## The state -/

/-- The tables, the broker, the metric sinks, the requests that left and the clock. -/
structure Deployment where
  endpoints : EndpointTable
  attempts : List AuditRow := []
  broker : Broker Message := .empty
  signals : List DeliveryMetric := []
  counters : List String := []
  sent : List Request := []
  clock : Time := 0

/-- Update the row of an endpoint. -/
def Deployment.updateEndpoint (s : Deployment) (pk : Nat) (f : WebhookEndpoint → WebhookEndpoint)
    (hf : ∀ endpoint, (f endpoint).pk = endpoint.pk) : Deployment :=
  { s with endpoints := s.endpoints.update pk f hf }

/-- An operation of a delivery to the endpoint with this primary key. -/
def execute (outside : Outside) (pk : Nat) : (op : Op) → Deployment → op.Reply × Deployment
  | .getEnabled, s => match (s.endpoints.get? pk).filter (·.enabled) with
    | none => (.ok none, s)
    | some row => (outside.load row, s)
  | .now, s => (s.clock, s)
  | .monotonic, s => (s.clock, s)
  | .setHalfOpen, s =>
    if (s.endpoints.get? pk).any (·.circuitState = .open) then
      (true, s.updateEndpoint pk WebhookEndpoint.halfOpened fun _ => rfl)
    else (false, s)
  | .resetCircuit, s => ((), s.updateEndpoint pk WebhookEndpoint.reset fun _ => rfl)
  | .incrementFailures, s =>
    ((), s.updateEndpoint pk (fun row => row.counting (row.consecutiveFailures + 1)) fun _ => rfl)
  | .refreshFailures, s => ((s.endpoints.get? pk).map (·.consecutiveFailures), s)
  | .openCircuit openedAt, s => ((), s.updateEndpoint pk (·.opened openedAt) fun _ => rfl)
  | .createAttempt attempt, s => match s.endpoints.get? attempt.endpointId with
    | none => (false, s) -- the foreign key
    | some _ => (true, { s with attempts := s.attempts ++ [{ created := s.clock, attempt }] })
  | .sendSignal metric, s => ((), { s with signals := s.signals ++ [metric] })
  | .incr name, s => ((), { s with counters := s.counters ++ [name] })
  | .getSecretValue _, s => (outside.secret, s)
  | .post request, s =>
    (outside.outcome, { s with sent := s.sent ++ [request], clock := s.clock + outside.elapsed })

/-- The rows of a purge: those before the cutoff, with the status if there is one. -/
def AuditRow.isOld (cutoff : Time) (status : Option AttemptStatus) (row : AuditRow) : Bool :=
  row.created < cutoff && status.all fun status => row.attempt.status = status

/-- What the outside decides about an operation: besides the answers to a delivery, the random
identifier, how a publication ends and which message is handed out or taken back. -/
structure Circumstances extends Outside where
  uuid : String := ""
  publication : Publication := .confirmed
  place : Nat := 0

/-- Every operation is one atomic step on the deployment. -/
def serve (e : Circumstances) : (op : SystemOp) → Deployment → op.Answer × Deployment
  | .endpointIds event, s => (s.endpoints.enabledFor event, s)
  | .uuid4, s => (e.uuid, s)
  | .now, s => (s.clock, s)
  | .publish message, s =>
    (e.publication,
      if e.publication.arrives then { s with broker := s.broker.publish message } else s)
  | .reserve, s => ((s.broker.reserve e.place).1, { s with broker := (s.broker.reserve e.place).2 })
  | .acknowledge tag _ _, s => ((), { s with broker := s.broker.acknowledge tag })
  | .redeliver, s =>
    ((s.broker.redeliver e.place).1, { s with broker := (s.broker.redeliver e.place).2 })
  | .statement message op, s => execute e.toOutside message.endpointId op s
  | .countAttempts cutoff status, s => (s.attempts.countP (AuditRow.isOld cutoff status), s)
  | .deleteAttempts cutoff status, s =>
    (s.attempts.countP (AuditRow.isOld cutoff status),
      { s with attempts := s.attempts.filter fun row => !row.isOld cutoff status })
  | .selectAttempts selects, s => ((s.attempts.filter selects).map AuditRow.attempt, s)

/-! ## What else happens -/

/-- Time passes, or an administrator saves or deletes an endpoint; the rows of its audit trail
are deleted with it. -/
inductive Intervention where
  | tick (duration : Nat)
  | saveEndpoint (pk : Nat) (row : Subscription)
  | deleteEndpoint (pk : Nat)

def intervene : Intervention → Deployment → Deployment
  | .tick duration, s => { s with clock := s.clock + duration }
  | .saveEndpoint pk row, s => { s with endpoints := s.endpoints.save pk row }
  | .deleteEndpoint pk, s =>
    { s with
      endpoints := s.endpoints.delete pk
      attempts := s.attempts.filter fun row => row.attempt.endpointId ≠ pk }

end WebhookRelay
