import WebhookRelay.Library.Pool
import WebhookRelay.Model.Tasks

/-!
# The database, the outside world and Celery

`respond` says how the database and the network answer the operations of a delivery.
`runChain` runs the attempts of one chain one after the other with nothing in between
but what its environment does before each attempt; `workers` is the pool in which any
number of chains run concurrently, one operation at a time.
-/

namespace WebhookRelay

open Interleaving

/-- The row of the endpoint, the audit trail, the metric sinks, the requests that left
and the clock. -/
structure Store where
  endpoint : WebhookEndpoint
  attempts : List WebhookDeliveryAttempt := []
  signals : List DeliveryMetric := []
  counters : List String := []
  sent : List Request := []
  clock : Time := 0

/-- What the outside decides about an operation: how a request ends and how long it takes,
what the secrets manager says, and which exception the secrets of a loaded row raise, if the key
in the settings cannot decrypt them. -/
structure Outside where
  outcome : PostOutcome
  elapsed : Nat := 0
  secret : SecretsAnswer := .resourceNotFound
  keyError : Option PyError := none

/-- What a delivery gets of a row that is there. -/
def Outside.load (outside : Outside) (row : WebhookEndpoint) :
    Except PyError (Option WebhookEndpoint) :=
  match outside.keyError with
  | some e => .error e
  | none => .ok (some row)

theorem Outside.load_ok {outside : Outside} {row : WebhookEndpoint}
    {found : Option WebhookEndpoint} (h : outside.load row = .ok found) : found = some row := by
  unfold load at h
  split at h
  · cases h
  · exact (Except.ok.inj h).symm

/-- Every database statement is one atomic step on the store. -/
def respond (outside : Outside) : (op : Op) → Store → op.Answer × Store
  | .getEnabled, s =>
    (if s.endpoint.enabled then outside.load s.endpoint else .ok none, s)
  | .now, s => (s.clock, s)
  | .monotonic, s => (s.clock, s)
  | .setHalfOpen, s =>
    if s.endpoint.circuitState = .open then
      (true, { s with endpoint := s.endpoint.halfOpened })
    else (false, s)
  | .resetCircuit, s => ((), { s with endpoint := s.endpoint.reset })
  | .incrementFailures, s =>
    ((), { s with endpoint := s.endpoint.counting (s.endpoint.consecutiveFailures + 1) })
  | .refreshFailures, s => (s.endpoint.consecutiveFailures, s)
  | .openCircuit openedAt, s => ((), { s with endpoint := s.endpoint.opened openedAt })
  | .createAttempt attempt, s => ((), { s with attempts := s.attempts ++ [attempt] })
  | .sendSignal metric, s => ((), { s with signals := s.signals ++ [metric] })
  | .incr name, s => ((), { s with counters := s.counters ++ [name] })
  | .getSecretValue _, s => (outside.secret, s)
  | .post request, s =>
    (outside.outcome, { s with sent := s.sent ++ [request], clock := s.clock + outside.elapsed })

/-- The handler of delivery programs. -/
def database : Program.Handler relay Outside Store := respond

/-- What the outside decides as a function of the operation. -/
abbrev Behaviour := Op → Outside

/-- The database, with an outside that goes by the operation. -/
def behaving : Program.Handler relay Behaviour Store :=
  fun behaviour op s => respond (behaviour op) op s

/-! ## One chain on its own -/

/-- What surrounds the attempt that runs with a given number of retries: how the row was
edited and how much time passed before it starts, and how its operations are answered. -/
structure Surroundings where
  edit : WebhookEndpoint → WebhookEndpoint := id
  wait : Nat := 0
  outside : Outside

/-- The store that the attempt finds. -/
def Surroundings.before (env : Surroundings) (s : Store) : Store :=
  { s with endpoint := env.edit s.endpoint, clock := s.clock + env.wait }

/-- What a finished chain leaves: the store, the operations of each of its attempts, the
countdowns of its retries and how its last attempt ended. -/
structure ChainResult where
  store : Store
  events : List (List (Event relay))
  countdowns : List Int
  finish : TaskEnd

/-- Run the attempts of a chain from the given number of retries on, until one of them is
not scheduled again; `none` when the fuel runs out first. -/
def runChain (attempt : Nat → Delivery TaskEnd) (env : Nat → Surroundings) :
    (fuel : Nat) → (retries : Nat) → Store → Option ChainResult
  | 0, _, _ => none
  | fuel + 1, retries, s =>
    let r := (attempt retries).exec database (env retries).outside ((env retries).before s)
    match r.value with
    | .retry next countdown => (runChain attempt env fuel next r.store).map fun rest =>
      { rest with events := r.events :: rest.events, countdowns := countdown :: rest.countdowns }
    | finish => some { store := r.store, events := [r.events], countdowns := [], finish }

/-! ## Any number of chains at once -/

/-- What the surroundings of a running pool may do: let time pass, or save an edit of the
endpoint's configuration in the admin. -/
inductive Disturbance where
  | tick (duration : Nat)
  | edit (enabled onlyOnPassing : Bool) (maxRetries circuitBreakerFailureThreshold : Nat)

def disturb : Disturbance → Store → Store
  | .tick duration, s => { s with clock := s.clock + duration }
  | .edit enabled onlyOnPassing maxRetries circuitBreakerFailureThreshold, s =>
    { s with endpoint := { s.endpoint with
        enabled, onlyOnPassing, maxRetries, circuitBreakerFailureThreshold } }

/-- The attempt that follows one that ended in a retry. -/
def nextAttempt (attempt : Nat → Delivery TaskEnd) : TaskEnd → Option (Delivery TaskEnd)
  | .retry retries _ => some (attempt retries)
  | _ => none

variable {ι : Type}

/-- Workers that each run one chain of deliveries to the endpoint. -/
def workers (lib : Primitives) (settings : Settings) (jobs : ι → Job) :
    System relay Outside Disturbance ι Store TaskEnd where
  handle := database
  environment := disturb
  relaunch i := nextAttempt (deliverWebhook lib settings (jobs i))

/-- Every chain is about to start its first attempt. -/
def launch (lib : Primitives) (settings : Settings) (jobs : ι → Job) (s : Store) :
    Config relay ι Store TaskEnd where
  store := s
  program i := deliverWebhook lib settings (jobs i) 0
  log := []

/-- The next operation of worker `i`; a request is answered with the given status. -/
def turn {A : Type} (statusCode : Nat) (i : ι) : Label Outside A ι :=
  .run i { outcome := .response statusCode "" }

/-- A chain is over when its last attempt has returned or an exception has escaped it; one
that waits for its retry is not. -/
def finished : Delivery TaskEnd → Bool
  | .ret (.retry _ _) => false
  | .ret _ => true
  | .call _ _ => false

/-! ## The smallest delivery -/

/-- A delivery of the empty payload. -/
def emptyJob : Job where
  event := "org.openedx.learning.course.passing.status.updated.v1"
  correlationId := exampleId
  rawPayload _ := .empty

/-- What the libraries compute for it, as long as there is no secret to sign with. -/
def emptyLib : Primitives where
  floatRepr _ := "0.0"
  sha256Hexdigest _ := "44136fa355b3678a1146ad16f7e8649e94fb4fc21fe77e8310c060f61caaff8a"
  hmacSha256Hexdigest _ _ := ""

/-- A receiver that accepts every request. -/
def acceptance : Outside := { outcome := .response 200 "" }

/-- The store of a new endpoint whose circuit opens at the first failure. -/
def brittle : Store where
  endpoint := { newEndpoint with circuitBreakerFailureThreshold := 1 }

/-- The same endpoint with its circuit open, at the end of the cooldown. -/
def cooledDown : Store where
  endpoint := { newEndpoint with
    circuitState := .open
    circuitOpenedAt := some 0
    consecutiveFailures := 1
    circuitBreakerFailureThreshold := 1 }
  clock := 300000000

end WebhookRelay
