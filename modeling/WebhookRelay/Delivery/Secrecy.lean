import WebhookRelay.Delivery.Request
import WebhookRelay.Library.Twins

/-!
# Where the secrets go

Two attempts on rows that differ in their secrets only, with settings that differ in the default
secret only, perform the same operations; the requests that they send differ in nothing but the
signatures. So rows, metrics, retries and exceptions tell nothing about a secret.

## Main results

* `secrecy_deliverWebhook` — the two attempts are in lockstep.
-/

namespace WebhookRelay

open Interleaving Program Dictionary

/-! ## Without the secrets -/

/-- The row with other secrets. -/
def WebhookEndpoint.keeping (self : WebhookEndpoint) (current previous : String) :
    WebhookEndpoint :=
  { self with signingSecret := current, signingSecretPrevious := previous }

def WebhookEndpoint.withoutSecrets (self : WebhookEndpoint) : WebhookEndpoint :=
  self.keeping "" ""

/-- What a load has found, without the secrets. -/
def hidingSecrets : Except PyError (Option WebhookEndpoint) →
    Except PyError (Option WebhookEndpoint) :=
  Except.map (Option.map WebhookEndpoint.withoutSecrets)

/-- Whether the secrets manager has answered, but not what. -/
def SecretsAnswer.withoutSecret : SecretsAnswer → SecretsAnswer
  | .failed => .failed
  | _ => .resourceNotFound

/-- The request without its two signature headers. -/
def Request.withoutSignatures (settings : Settings) (request : Request) : Request :=
  { request with
    headers := erase (erase request.headers settings.signatureHeader)
      (settings.signatureHeader ++ "-Previous") }

/-- The settings with another default secret. -/
def Settings.defaulting (settings : Settings) (defaultSecret : String) : Settings :=
  { settings with defaultSecret }

/-- A row is another one with other secrets. -/
theorem WebhookEndpoint.eq_of_withoutSecrets {a b : WebhookEndpoint}
    (h : a.withoutSecrets = b.withoutSecrets) :
    b = a.keeping b.signingSecret b.signingSecretPrevious := by
  cases a
  cases b
  simp only [withoutSecrets, keeping, WebhookEndpoint.mk.injEq] at h
  simp [keeping, h]

/-- The operations that neither give nor take a secret or what is made of one. -/
def Op.blind : Op → Bool
  | .getEnabled | .getSecretValue _ | .post _ => false
  | _ => true

/-- Operations go together with themselves; rows, secrets and requests with those that differ in
the secrets only. -/
inductive Secretly (settings : Settings) : Coupling relay relay where
  | blind {op : Op} : op.blind → Secretly settings op op Eq
  | load : Secretly settings .getEnabled .getEnabled fun a b =>
      hidingSecrets a = hidingSecrets b
  | secret {secretId : String} :
      Secretly settings (.getSecretValue secretId) (.getSecretValue secretId) fun a b =>
        a.withoutSecret = b.withoutSecret
  | request {request request' : Request} :
      request.withoutSignatures settings = request'.withoutSignatures settings →
      Secretly settings (.post request) (.post request') Eq

/-! ## Blind parts -/

section Blind

variable {settings : Settings}

/-- The rule of a program that has nothing to do with secrets. -/
abbrev blindly : Discipline relay Unit := only fun op : Op => op.blind

theorem secrecy_blind {α : Type} {p : Delivery α} (h : p.Follows blindly (fun _ _ => True) ()) :
    Lockstep (Secretly settings) Eq p p :=
  .of_follows (fun _ => .blind) h

theorem blind_recordThen (ctx : AttemptContext) (status : AttemptStatus)
    (details : AttemptDetails) {rest : Delivery TaskEnd}
    (hrest : rest.Follows blindly (fun _ _ => True) ()) :
    (recordThen settings ctx status details rest).Follows blindly (fun _ _ => True) () := by
  cases hwrite : (attemptRow ctx status details).writeError? with
  | some e =>
    rw [recordThen_raises hwrite]
    trivial
  | none =>
    rw [recordThen_eq hwrite]
    refine ⟨rfl, fun _ => ⟨rfl, fun _ => ?_⟩⟩
    beta_reduce
    split
    · exact ⟨rfl, fun _ => hrest⟩
    · exact hrest

theorem blind_recordCircuitFailure (endpoint : WebhookEndpoint) :
    endpoint.recordCircuitFailure.Follows blindly (fun _ _ => True) () := by
  refine ⟨rfl, fun _ => ⟨rfl, fun (failures : Nat) => ?_⟩⟩
  change Follows _ _ (if _ then _ else _) ()
  split
  · exact ⟨rfl, fun _ => ⟨rfl, fun _ => trivial⟩⟩
  · trivial

theorem blind_conclude (ctx : AttemptContext) (retries : Nat) (payload : Payload) (start : Time)
    (outcome : PostOutcome) :
    (conclude settings ctx retries payload start outcome).Follows blindly
      (fun _ _ => True) () := by
  have hfailure : (ctx.endpoint.recordCircuitFailure >>= fun _ => .ret TaskEnd.returned).Follows
      blindly (fun _ _ => True) () :=
    (blind_recordCircuitFailure ctx.endpoint).bind fun _ _ _ => trivial
  have hretry : ∀ exc details, (failOrRetry settings ctx retries exc details).Follows blindly
      (fun _ _ => True) () := by
    intro exc details
    unfold failOrRetry
    split
    · exact blind_recordThen ctx _ _ trivial
    · exact blind_recordThen ctx _ _ hfailure
  cases outcome with
  | otherException message => trivial
  | connectionError message | timeout message => exact ⟨rfl, fun _ => hretry _ _⟩
  | response statusCode text =>
    refine ⟨rfl, fun (stop : Time) => ?_⟩
    change Follows _ _ (if _ then _ else if _ then _ else _) ()
    split
    · exact hretry _ _
    split
    · exact blind_recordThen ctx _ _ hfailure
    · exact blind_recordThen ctx _ _ ⟨rfl, fun _ => trivial⟩

end Blind

/-! ## The secrets of an attempt -/

section Secrecy

variable (lib : Primitives) (settings : Settings) (defaultSecret current previous : String)

/-- The context of an attempt on a row with other secrets. -/
def AttemptContext.keeping (ctx : AttemptContext) (current previous : String) : AttemptContext :=
  { ctx with endpoint := ctx.endpoint.keeping current previous }

theorem failure_keeping (endpoint : WebhookEndpoint) (next : Delivery TaskEnd) :
    ((endpoint.keeping current previous).recordCircuitFailure >>= fun _ => next) =
      endpoint.recordCircuitFailure >>= fun _ => next := by
  rw [WebhookEndpoint.recordCircuitFailure_bind, WebhookEndpoint.recordCircuitFailure_bind]
  rfl

theorem failOrRetry_keeping (ctx : AttemptContext) (retries : Nat) (exc : PyError)
    (details : AttemptDetails) :
    failOrRetry (settings.defaulting defaultSecret) (ctx.keeping current previous) retries exc
        details = failOrRetry settings ctx retries exc details := by
  refine ite_congr rfl (fun _ => rfl) fun _ => ?_
  exact congrArg (recordThen settings ctx .exhausted details)
    (failure_keeping current previous ctx.endpoint _)

/-- What an attempt does after its request is the same whatever the secrets of its row are. -/
theorem conclude_keeping (ctx : AttemptContext) (retries : Nat) (payload : Payload) (start : Time)
    (outcome : PostOutcome) :
    conclude (settings.defaulting defaultSecret) (ctx.keeping current previous) retries payload
        start outcome = conclude settings ctx retries payload start outcome := by
  cases outcome with
  | otherException message => rfl
  | connectionError message | timeout message =>
    exact congrArg (Program.call (S := relay) .monotonic) (funext fun _ => failOrRetry_keeping ..)
  | response statusCode text =>
    refine congrArg (Program.call (S := relay) .monotonic) (funext fun (stop : Time) => ?_)
    refine ite_congr rfl (fun _ => failOrRetry_keeping ..) fun _ => ?_
    refine ite_congr rfl (fun _ => ?_) fun _ => rfl
    exact congrArg (recordThen settings ctx .exhausted _)
      (failure_keeping current previous ctx.endpoint _)

/-! ### The request -/

theorem erase_addSignature (headers : Members) (name bytes secret : String) :
    erase (addSignature lib headers name bytes secret) name = erase headers name := by
  unfold addSignature
  split
  · exact erase_set _ _ _
  · rfl

/-- The two signatures are all that a request has from the secrets. -/
theorem withoutSignatures_signedRequest (endpoint : WebhookEndpoint) (payload : Payload)
    (headers : Members) (secret secret' : String) :
    (signedRequest lib (settings.defaulting defaultSecret) (endpoint.keeping current previous)
        payload headers secret').withoutSignatures settings =
      (signedRequest lib settings endpoint payload headers secret).withoutSignatures settings := by
  have herase : ∀ current previous : String,
      erase (erase (addSignature lib (addSignature lib headers settings.signatureHeader
        (serializePayload lib payload) current) (settings.signatureHeader ++ "-Previous")
        (serializePayload lib payload) previous) settings.signatureHeader)
        (settings.signatureHeader ++ "-Previous") =
      erase (erase headers settings.signatureHeader) (settings.signatureHeader ++ "-Previous") := by
    intro current previous
    rw [erase_comm, erase_addSignature, erase_comm, erase_addSignature]
  exact congrArg (fun headers : Members =>
    ({ url := endpoint.webhookUrl, data := serializePayload lib payload, headers,
       timeout := endpoint.timeoutSeconds } : Request))
    ((herase secret' previous).trans (herase secret endpoint.signingSecretPrevious).symm)

/-- Two results of code that may raise are the same exception, or are both values. -/
abbrev RaiseAlike {α β : Type} (r : α → β → Prop) : Except PyError α → Except PyError β → Prop :=
  Lockstep.Caught Eq r

/-- Whether there is an exception does not depend on the secrets. -/
theorem secrecy_effectiveSecret (endpoint : WebhookEndpoint) :
    Lockstep (Secretly settings) (RaiseAlike fun _ _ => True) (endpoint.effectiveSecret settings)
      ((endpoint.keeping current previous).effectiveSecret
        (settings.defaulting defaultSecret)) := by
  have hbackend : ∀ backend : SecretBackend, Lockstep (Secretly settings)
      (RaiseAlike fun _ _ => True) (backend.getSecret settings endpoint)
      (backend.getSecret (settings.defaulting defaultSecret)
        (endpoint.keeping current previous)) := by
    intro backend
    cases backend with
    | database => exact .ret (.answered trivial)
    | awsSecretsManager =>
      change Lockstep _ _ (awsGetSecret settings endpoint) (awsGetSecret settings endpoint)
      unfold awsGetSecret
      split
      · exact .ret (.answered trivial)
      split
      · exact .ret (.ended rfl)
      · refine .call .secret fun answer answer' halike => ?_
        cases answer <;> cases answer' <;> first
          | exact .ret (.answered trivial)
          | exact .ret (.ended rfl)
          | cases halike
  have hsame : getSecretBackend (settings.defaulting defaultSecret) = getSecretBackend settings :=
    rfl
  rw [WebhookEndpoint.effectiveSecret, WebhookEndpoint.effectiveSecret, hsame]
  cases getSecretBackend settings with
  | error e => exact .ret (.ended rfl)
  | ok backend =>
    refine (hbackend backend).bind fun result result' halike => ?_
    cases halike with
    | ended he => exact .ret (.ended he)
    | answered =>
      dsimp only
      split <;> split <;> exact .ret (.answered trivial)

/-- The requests that are built are the same but for the signatures. -/
theorem secrecy_buildRequest (endpoint : WebhookEndpoint) (correlationId : String)
    (payload : Payload) :
    Lockstep (Secretly settings)
      (RaiseAlike fun a b => a.withoutSignatures settings = b.withoutSignatures settings)
      (buildRequest lib settings endpoint correlationId payload)
      (buildRequest lib (settings.defaulting defaultSecret) (endpoint.keeping current previous)
        correlationId payload) := by
  have hsame : baseHeaders (endpoint.keeping current previous) correlationId =
      baseHeaders endpoint correlationId := rfl
  rw [buildRequest_eq, buildRequest_eq, hsame]
  cases baseHeaders endpoint correlationId with
  | error e => exact .ret (.ended rfl)
  | ok headers =>
    refine (secrecy_effectiveSecret settings defaultSecret current previous endpoint).bind ?_
    intro result result' halike
    cases halike with
    | ended he => exact .ret (.ended he)
    | answered =>
      exact .ret (.answered (withoutSignatures_signedRequest ..).symm)

/-! ### The attempt -/

theorem secrecy_sendAttempt (ctx : AttemptContext) (retries : Nat) (payload : Payload) :
    Lockstep (Secretly settings) Eq (sendAttempt lib settings ctx retries payload)
      (sendAttempt lib (settings.defaulting defaultSecret) (ctx.keeping current previous) retries
        payload) := by
  unfold sendAttempt
  refine (secrecy_buildRequest lib settings defaultSecret current previous ctx.endpoint
    ctx.correlationId payload).bind fun result result' halike => ?_
  cases halike with
  | ended he => exact .ret (congrArg TaskEnd.raised he)
  | answered hrequest =>
    refine .call (.blind rfl) fun start _ hstart => ?_
    subst hstart
    refine .call (.request hrequest) fun outcome _ houtcome => ?_
    subst houtcome
    change Lockstep _ _ (conclude settings ctx retries payload start outcome)
      (conclude (settings.defaulting defaultSecret) (ctx.keeping current previous) retries payload
        start outcome)
    rw [conclude_keeping]
    exact secrecy_blind (blind_conclude ctx retries payload start outcome)

/-- The breaker check does not look at the secrets. -/
theorem secrecy_gate (endpoint : WebhookEndpoint) (attemptNumber : Nat) :
    Lockstep (Secretly settings)
      (fun a b => b = (a.1, a.2.keeping current previous)) (gate endpoint attemptNumber)
      (gate (endpoint.keeping current previous) attemptNumber) := by
  unfold gate
  split
  · rw [← Program.bind_ret (WebhookEndpoint.tryAcquireDeliverySlot endpoint),
      ← Program.bind_ret (WebhookEndpoint.tryAcquireDeliverySlot (endpoint.keeping _ _)),
      WebhookEndpoint.tryAcquireDeliverySlot_bind, WebhookEndpoint.tryAcquireDeliverySlot_bind]
    refine .ite (fun _ => .ret rfl) fun _ => .ite (fun _ => .ret rfl) fun _ => ?_
    rw [show (endpoint.keeping current previous).circuitOpenedAt = endpoint.circuitOpenedAt from
      rfl]
    cases endpoint.circuitOpenedAt with
    | none => exact .ret rfl
    | some openedAt =>
      refine .call (.blind rfl) fun (time : Time) _ htime => ?_
      subst htime
      refine .ite (fun _ => .ret rfl) fun _ => .call (.blind rfl) fun (won : Bool) _ hwon => ?_
      subst hwon
      cases won <;> exact .ret rfl
  · exact .ret rfl

/-- Attempts on rows that are the same but for the secrets, with settings that are the same but for
the default secret, are in lockstep. -/
theorem secrecy_deliverWebhook (job : Job) (retries : Nat) :
    Lockstep (Secretly settings) Eq (deliverWebhook lib settings job retries)
      (deliverWebhook lib (settings.defaulting defaultSecret) job retries) := by
  unfold deliverWebhook
  refine .call .load fun found found' halike => ?_
  match found, found' with
  | .error e, .error e' =>
    exact .ret (congrArg TaskEnd.raised (Except.error.inj halike))
  | .error _, .ok _ | .ok _, .error _ => cases halike
  | .ok none, .ok none => exact .ret rfl
  | .ok none, .ok (some _) | .ok (some _), .ok none => cases halike
  | .ok (some endpoint), .ok (some endpoint') =>
    have hsame : endpoint' =
        endpoint.keeping endpoint'.signingSecret endpoint'.signingSecretPrevious :=
      WebhookEndpoint.eq_of_withoutSecrets (Option.some.inj (Except.ok.inj halike))
    generalize endpoint'.signingSecret = current at hsame
    generalize endpoint'.signingSecretPrevious = previous at hsame
    subst hsame
    have hshape : shapeAndCheck (job.rawPayload retries) (endpoint.keeping current previous) =
        shapeAndCheck (job.rawPayload retries) endpoint := rfl
    dsimp only [Program.bind]
    rw [hshape]
    cases shapeAndCheck (job.rawPayload retries) endpoint with
    | error e => exact .ret rfl
    | ok shaped =>
      obtain ⟨payload, shouldSend⟩ := shaped
      cases shouldSend with
      | false =>
        exact secrecy_blind (blind_recordThen _ .skipped {} trivial)
      | true =>
        refine (secrecy_gate settings current previous endpoint (retries + 1)).bind ?_
        rintro ⟨acquired, copy⟩ _ rfl
        cases acquired with
        | false =>
          exact secrecy_blind (blind_recordThen _ .circuitOpen {} trivial)
        | true => exact secrecy_sendAttempt lib settings defaultSecret current previous _ _ _

end Secrecy

end WebhookRelay
