import WebhookRelay.Model.Endpoint

/-!
# Secret backends

The reading half of `secrets_backend.py` and the two secret accessors of the endpoint.
The database backend reads the plaintext column of the copy in memory; the AWS backend
makes a network call, which may fail with an exception that nothing here catches.
-/

namespace WebhookRelay

open Interleaving Delivery

/-- The Django settings that a delivery reads, with the code's own defaults. -/
structure Settings where
  signatureHeader : String := "X-OpenEdX-Webhook-Signature"
  defaultSecret : String := ""
  retryBackoffSeconds : Int := 30
  retryBackoffMaxSeconds : Int := 900
  secretBackend : String := "database"
  awsSecretNamePrefix : String := "openedx-webhook-relay"
  /-- whether `OPENEDX_WEBHOOK_RELAY_STATSD_CLIENT` is set -/
  statsdClient : Bool := false

inductive SecretBackend where
  | database | awsSecretsManager
  deriving DecidableEq, Repr

/-- `get_secret_backend`. -/
def getSecretBackend (settings : Settings) : Except PyError SecretBackend :=
  if settings.secretBackend = "database" then .ok .database
  else if settings.secretBackend = "aws_secrets_manager" then .ok .awsSecretsManager
  else .error (.improperlyConfigured
    ("Unknown OPENEDX_WEBHOOK_RELAY_SECRET_BACKEND='" ++ settings.secretBackend ++
      "'; expected one of ['aws_secrets_manager', 'database']."))

/-- `AWSSecretsManagerBackend._secret_name`. -/
def secretName (settings : Settings) (endpoint : WebhookEndpoint) : Except PyError String :=
  match endpoint.secretBackendReference with
  | none => .error (.improperlyConfigured
      ("WebhookEndpoint.secret_backend_reference is unset; it should be " ++
        "assigned a UUID by the model's default before secrets are read/written."))
  | some reference => .ok (settings.awsSecretNamePrefix ++ "/" ++ reference)

/-- `AWSSecretsManagerBackend.get_secret`. -/
def awsGetSecret (settings : Settings) (endpoint : WebhookEndpoint) :
    Delivery (Except PyError String) :=
  match endpoint.secretBackendReference with
  | none => return .ok ""
  | some _ => match secretName settings endpoint with
    | .error e => return .error e
    | .ok name => do
      match ← getSecretValue name with
      | .found secretString => return .ok (secretString.getD "")
      | .resourceNotFound => return .ok ""
      | .failed => return .error .secretsManagerError

/-- `get_secret` of either backend. -/
def SecretBackend.getSecret (backend : SecretBackend) (settings : Settings)
    (endpoint : WebhookEndpoint) : Delivery (Except PyError String) :=
  match backend with
  | .database => return .ok endpoint.signingSecret
  | .awsSecretsManager => awsGetSecret settings endpoint

/-- `WebhookEndpoint.effective_secret`. -/
def WebhookEndpoint.effectiveSecret (self : WebhookEndpoint) (settings : Settings) :
    Delivery (Except PyError String) :=
  match getSecretBackend settings with
  | .error e => return .error e
  | .ok backend => do
    match ← backend.getSecret settings self with
    | .error e => return .error e
    | .ok secret =>
      if secret ≠ "" then return .ok secret else return .ok settings.defaultSecret

/-- `WebhookEndpoint.effective_previous_secret`. -/
def WebhookEndpoint.effectivePreviousSecret (self : WebhookEndpoint) : String :=
  self.signingSecretPrevious

end WebhookRelay
