import WebhookRelay.Model.Endpoint

/-!
# Requeueing exhausted deliveries

The admin action `requeue_selected` and the command `redeliver_failed_webhooks`. Both start a new
delivery for a row of the audit trail, with the snapshot of the row as its raw payload. Rows are
given in the order in which they were created, each with its correlation id as `str` writes a
UUID; what the command lists on the terminal is left out.
-/

namespace WebhookRelay

/-- The arguments of `deliver_webhook.delay`. -/
structure Enqueued where
  endpointId : Nat
  event : String
  rawPayload : Json
  correlationId : String

/-- The snapshot as a value, `None` if the row has none. -/
def WebhookDeliveryAttempt.snapshot (attempt : WebhookDeliveryAttempt) : Json :=
  match attempt.payloadSnapshot with
  | none => .null
  | some payload => .obj payload.members

/-- The delivery that is started for a row. -/
def WebhookDeliveryAttempt.enqueue (attempt : WebhookDeliveryAttempt) (payload : Json) :
    Enqueued where
  endpointId := attempt.endpointId
  event := attempt.event
  rawPayload := payload
  correlationId := attempt.correlationId

/-! ## The admin action -/

inductive MessageLevel where
  | success | warning

/-- What the action has enqueued, and its two counters. -/
structure Requeued where
  enqueued : List Enqueued := []
  requeued : Nat := 0
  skippedNoSnapshot : Nat := 0

/-- One round of the loop of `requeue_selected`. -/
def Requeued.next (done : Requeued) (attempt : WebhookDeliveryAttempt) : Requeued :=
  match attempt.payloadSnapshot with
  | none => { done with skippedNoSnapshot := done.skippedNoSnapshot + 1 }
  | some _ =>
    { done with
      enqueued := done.enqueued ++ [attempt.enqueue attempt.snapshot]
      requeued := done.requeued + 1 }

/-- `requeue_selected` on the selected rows. -/
def requeueSelected (queryset : List WebhookDeliveryAttempt) : Requeued :=
  (queryset.filter fun attempt => attempt.status = .exhausted).foldl Requeued.next {}

/-- What the action tells the operator. -/
def Requeued.messages (done : Requeued) : List (MessageLevel × String) :=
  (if done.requeued ≠ 0 then
    [(.success, "Requeued " ++ toString done.requeued ++ " deliver(y/ies).")] else []) ++
  if done.skippedNoSnapshot ≠ 0 then
    [(.warning, "Skipped " ++ toString done.skippedNoSnapshot ++
      " attempt(s) with no stored payload snapshot (enable retain_payload_snapshot on the " ++
      "endpoint before the fact, or use `./manage.py redeliver_failed_webhooks --requeue " ++
      "--payload-file=...`).")] else []

/-! ## Correlation ids -/

/-- The value of a hexadecimal digit. -/
def hexDigit? (c : Char) : Option Nat :=
  if '0' ≤ c ∧ c ≤ '9' then some (c.toNat - 48)
  else if 'a' ≤ c ∧ c ≤ 'f' then some (c.toNat - 87)
  else if 'A' ≤ c ∧ c ≤ 'F' then some (c.toNat - 55)
  else none

/-- Digits with single underscores between them. -/
def readHex (value : Nat) : (afterDigit : Bool) → List Char → Option Nat
  | afterDigit, [] => if afterDigit then some value else none
  | afterDigit, '_' :: cs => if afterDigit then readHex value false cs else none
  | _, c :: cs => match hexDigit? c with
    | some d => readHex (16 * value + d) true cs
    | none => none

/-- `text.strip(chars)`. -/
def stripChars (chars : List Char) (text : List Char) : List Char :=
  ((text.dropWhile (· ∈ chars)).reverse.dropWhile (· ∈ chars)).reverse

/-- `int(text, 16)` of a text without minus signs. -/
def intOfHex (text : List Char) : Option Nat :=
  let text := stripChars [' ', '\t', '\n', '\x0b', '\x0c', '\r'] text
  let text := if text.head? = some '+' then text.tail else text
  match text with
  | '0' :: 'x' :: '_' :: cs | '0' :: 'X' :: '_' :: cs | '0' :: 'x' :: cs | '0' :: 'X' :: cs =>
    readHex 0 false cs
  | cs => readHex 0 false cs

/-- `text.replace(sub, '')`, with `skip` characters of an occurrence still to drop. -/
def removeAll (sub : List Char) : (skip : Nat) → List Char → List Char
  | _, [] => []
  | skip + 1, _ :: cs => removeAll sub skip cs
  | 0, c :: cs =>
    if sub.isPrefixOf (c :: cs) then removeAll sub (sub.length - 1) cs
    else c :: removeAll sub 0 cs

/-- `uuid.UUID(hex)`, by its value: in whichever form and case it is written. -/
def uuid? (hex : String) : Option Nat :=
  let digits := removeAll ['u', 'u', 'i', 'd', ':'] 0 (removeAll ['u', 'r', 'n', ':'] 0 hex.toList)
  let digits := (stripChars ['\x7b', '\x7d'] digits).filter (· ≠ '-')
  if digits.length = 32 then intOfHex digits else none

/-! ## The command -/

/-- The options of the command; one that is not given is falsy. -/
structure RedeliverOptions where
  correlationId : String := ""
  endpointId : Int := 0
  requeue : Bool := false
  payloadFile : String := ""

/-- How the command fails: with a `CommandError`, because the correlation id is not a UUID, or
because the payload file cannot be read. -/
inductive RedeliverError where
  | commandError (message : String)
  | validationError (message : String)
  | payloadFile

/-- The correlation id to filter by, if there is one, is a UUID. -/
def RedeliverOptions.valid (options : RedeliverOptions) : Bool :=
  options.correlationId = "" || (uuid? options.correlationId).isSome

/-- The exhausted rows that match valid options, newest first. -/
def matchingAttempts (options : RedeliverOptions) (attempts : List WebhookDeliveryAttempt) :
    List WebhookDeliveryAttempt :=
  (attempts.filter fun attempt => attempt.status = .exhausted &&
    (options.correlationId = "" || uuid? attempt.correlationId = uuid? options.correlationId) &&
    (options.endpointId = 0 || (attempt.endpointId : Int) = options.endpointId)).reverse

/-- The text of the error about rows for which there is no payload. -/
def missingPayloadMessage (missingPayload : Nat) : String :=
  "--payload-file not supplied and " ++ toString missingPayload ++ " matched attempt(s) " ++
    "have no stored payload_snapshot (the endpoint didn't have retain_payload_snapshot " ++
    "enabled). Supply --payload-file, or narrow the selection with " ++
    "--correlation-id/--endpoint-id to attempts that do have one."

/-- `redeliver_failed_webhooks`, what it enqueues. The payload of the file goes to every row; one
that holds `null` is loaded as none. -/
def redeliverFailedWebhooks (load : String → Except RedeliverError (Option Json))
    (options : RedeliverOptions) (attempts : List WebhookDeliveryAttempt) :
    Except RedeliverError (List Enqueued) := do
  if !options.valid then
    throw (.validationError ("“" ++ options.correlationId ++ "” is not a valid UUID."))
  let qs := matchingAttempts options attempts
  if qs.isEmpty then return []
  if !options.requeue then return [] -- a dry run
  let explicitPayload ← if options.payloadFile ≠ "" then load options.payloadFile else .ok none
  let missingPayload := qs.filter fun a => a.payloadSnapshot.isNone && explicitPayload.isNone
  if !missingPayload.isEmpty then
    throw (.commandError (missingPayloadMessage missingPayload.length))
  return qs.map fun attempt => attempt.enqueue (explicitPayload.getD attempt.snapshot)

end WebhookRelay
