import WebhookRelay.Library.Translation
import WebhookRelay.Model.InPlace
import WebhookRelay.Model.Receivers
import WebhookRelay.Model.Redelivery
import WebhookRelay.Model.Retention

/-!
# The workers and the whole deployment

A worker takes a message, runs one attempt of `deliver_webhook` for it and acknowledges it
afterwards (`acks_late=True`); a retry is published before that. It is published with the raw
payload as the attempt has left it; if that fails, the message is rejected and not queued
again. `deployed` runs workers, receivers, commands and scheduled purges side by side, any
number of each, one operation at a time. A worker that crashes is one that gets no more turns.
-/

namespace WebhookRelay

open Interleaving Process

/-! ## What an attempt leaves of the raw payload -/

/-- The value as a raw payload, if it is an object. -/
def Json.toPayload? (v : Json) : Option Payload :=
  match v with
  | .obj ms => if h : Json.WellFormed (.obj ms) then some ⟨ms, h⟩ else none
  | _ => none

/-- The raw payload after `_shape_and_check` has run on it. -/
def Payload.leftBy (raw : Payload) (endpoint : WebhookEndpoint) : Payload :=
  match shapeObjects raw.members endpoint with
  | .ok (_, left) => left.toPayload?.getD raw
  | .error _ => raw -- nothing is published again

/-- An attempt changes its raw payload when it has loaded the endpoint. -/
def leaveBehind (raw : Payload) : Event relay → Payload
  | ⟨.getEnabled, .ok (some endpoint)⟩ => raw.leftBy endpoint
  | _ => raw

/-! ## Workers -/

/-- The arguments of the task. -/
def Message.job (message : Message) : Job where
  event := message.event
  correlationId := message.correlationId
  rawPayload _ := message.rawPayload

/-- A statement of the delivery of a message; the exceptions of the database end the task. -/
def perform {α : Type} (message : Message) (op : Op) :
    Process (Except (Except DatabaseError α) op.Answer) :=
  .call (.statement message op) fun reply => .ret ((op.read reply).mapError .error)

/-- One attempt, with what it leaves of the raw payload. -/
def runAttempt (lib : Primitives) (settings : Settings) (message : Message) :
    Process (Except DatabaseError (TaskEnd × Payload)) :=
  ((deliverWebhook lib settings message.job message.retries).tracked leaveBehind
    message.rawPayload).translate (perform message) .ok

/-- The message for the next attempt. -/
def Message.again (message : Message) (retries : Nat) (rawPayload : Payload) : Message :=
  { message with retries, rawPayload }

/-- What a worker does when an attempt has ended. -/
def concludeTask (tag : Nat) (message : Message) :
    Except DatabaseError (TaskEnd × Payload) → Process Unit
  | .error e => acknowledge tag message (.failure (.inl e))
  | .ok (.raised e, _) => acknowledge tag message (.failure (.inr e))
  | .ok (.returned, _) => acknowledge tag message .success
  | .ok (.retry retries _, left) => do
    match ← publish (message.again retries left) with
    | .confirmed => acknowledge tag message .retry
    | _ => acknowledge tag message .rejected -- `Task.retry` raises `Reject`

/-- One turn of a worker. -/
def work (lib : Primitives) (settings : Settings) : Process Unit := do
  match ← reserve with
  | none => return
  | some (tag, message) => runAttempt lib settings message >>= concludeTask tag message

/-! ## Operators -/

/-- The message that is published for a delivery started by hand. -/
def Enqueued.message? (enqueued : Enqueued) : Option Message :=
  enqueued.rawPayload.toPayload?.map fun rawPayload =>
    { endpointId := enqueued.endpointId, event := enqueued.event, rawPayload,
      correlationId := enqueued.correlationId }

/-- `redeliver_failed_webhooks`, given the value in the payload file. A file that holds no object
is left out. -/
def redeliver (options : RedeliverOptions) (file : Option Json) : Process Unit := do
  let attempts ← selectAttempts fun _ => true
  match redeliverFailedWebhooks (fun _ => .ok file) options attempts with
  | .error _ => return
  | .ok enqueued => publishEach (enqueued.filterMap Enqueued.message?)

/-- The messages that the command publishes. -/
def redelivered (options : RedeliverOptions) (file : Option Json)
    (attempts : List WebhookDeliveryAttempt) : List Message :=
  match redeliverFailedWebhooks (fun _ => .ok file) options attempts with
  | .error _ => []
  | .ok enqueued => enqueued.filterMap Enqueued.message?

/-- The command as a tree of calls. -/
theorem redeliver_eq (options : RedeliverOptions) (file : Option Json) :
    redeliver options file = .call (.selectAttempts fun _ => true) fun attempts =>
      publishEach (redelivered options file attempts) := by
  simp only [redeliver, selectAttempts, Program.call_bind, Program.ret_bind]
  congr; funext attempts
  unfold redelivered
  cases redeliverFailedWebhooks (fun _ => .ok file) options attempts <;> rfl

/-- The admin action on the selected rows. -/
def requeue (selects : AuditRow → Bool) : Process Unit := do
  let queryset ← selectAttempts selects
  publishEach ((requeueSelected queryset).enqueued.filterMap Enqueued.message?)

/-! ## The deployment -/

/-- The processes of a deployment. -/
inductive Duty where
  | receiver (eventName : String) (event : EventData)
  | worker
  | visibilityTimeout
  | redeliver (options : RedeliverOptions) (file : Option Json)
  | requeue (selects : AuditRow → Bool)
  | purgeCommand (options : PurgeOptions)
  | purgeTask

/-- What the code takes from the libraries and from the settings. -/
structure Site where
  lib : Primitives
  settings : Settings
  retention : RetentionSettings

def Duty.program (site : Site) : Duty → Process Unit
  | .receiver eventName event => processEvent eventName event
  | .worker => work site.lib site.settings
  | .visibilityTimeout => Process.redeliver >>= fun _ => return
  | .redeliver options file => WebhookRelay.redeliver options file
  | .requeue selects => WebhookRelay.requeue selects
  | .purgeCommand options =>
    purgeOldDeliveryAttemptsCommand site.retention options >>= fun _ => return
  | .purgeTask => purgeOldDeliveryAttemptsTask site.retention >>= fun _ => return

/-- Workers, the broker's timeouts and the scheduled task start over. -/
def Duty.repeats : Duty → Bool
  | .worker | .visibilityTimeout | .purgeTask => true
  | _ => false

variable {ι : Type}

/-- Processes side by side. -/
def deployed (site : Site) (duties : ι → Duty) :
    System deployment Circumstances Intervention ι Deployment Unit where
  handle := serve
  environment := intervene
  relaunch i _ := if (duties i).repeats then some ((duties i).program site) else none

/-- Every process is about to start. -/
def boot (site : Site) (duties : ι → Duty) (s : Deployment) :
    Config deployment ι Deployment Unit where
  store := s
  program i := (duties i).program site
  log := []

/-! ## The smallest deployment -/

/-- An event whose data has no fields. -/
def emptyEvent : EventData where
  dataType := "CoursePassingStatusData"
  data := .obj []
  metadata := some (.obj [])
  data_wellFormed := Payload.empty.wellFormed
  metadata_wellFormed _ h := Option.some.inj h ▸ Payload.empty.wellFormed

def emptySite : Site where
  lib := emptyLib
  settings := {}
  retention := {}

/-- One endpoint, which is subscribed to the event. -/
def oneSubscriber : Deployment where
  endpoints := EndpointTable.empty.save 1
    { event := "COURSE_PASSING_STATUS_UPDATED"
      endpoint := { newEndpoint with onlyOnPassing := false } }

def receiverAndWorker : Fin 2 → Duty
  | 0 => .receiver "COURSE_PASSING_STATUS_UPDATED" emptyEvent
  | _ => .worker

/-- The next operation of a process; a request is answered with the given status. -/
def onward (statusCode : Nat) (i : ι) : Label Circumstances Intervention ι :=
  .run i { outcome := .response statusCode "", uuid := exampleId }

/-- The next operation of a process is a publication, and it is refused. -/
def refusing (i : ι) : Label Circumstances Intervention ι :=
  .run i { outcome := .response 200 "", publication := .refused }

/-- The receiver publishes a delivery, and the worker performs a number of operations. -/
def servedOnce (statusCode operations : Nat) : List (Label Circumstances Intervention (Fin 2)) :=
  List.replicate 3 (onward statusCode 0) ++ List.replicate operations (onward statusCode 1)

end WebhookRelay
