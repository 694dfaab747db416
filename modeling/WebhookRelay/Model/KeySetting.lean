import WebhookRelay.Library.Register
import WebhookRelay.Model.Editing

/-!
# The encryption key as a setting

`_get_fernet` looks the key up in the settings of the process each time a column is converted, and
`rotate_encryption_key` overrides the setting while it loads the table and again while it saves
it. In `WebhookRelay.Model.Editing` the conversions are given the key that they would find; here
they look it up themselves. The check that runs at deploy time looks at the same setting.
-/

namespace WebhookRelay

open Interleaving Program

/-- `settings.OPENEDX_WEBHOOK_RELAY_ENCRYPTION_KEY`: the attribute may be missing or `None`. -/
abbrev KeySetting := Option (Option String)

/-- An edit by a process that has settings. -/
abbrev configured : Signature := (register KeySetting).sum editing

/-- `getattr(settings, "OPENEDX_WEBHOOK_RELAY_ENCRYPTION_KEY", None)`. -/
def keyFromSettings : Program configured (Option String) := do
  let setting ← readRegister
  return setting.join

/-- `using_encryption_key`: the attribute is restored, or deleted again, on every path. -/
def usingEncryptionKey {α : Type} (key : String) (body : Program configured α) :
    Program configured α :=
  during (some (some key)) body

/-! ## Conversions that look up the key -/

namespace Configured

variable (F : Fernet)

/-- `EncryptedCharField.get_prep_value`. -/
def getPrepValue (nonce : F.Nonce) (value : String) :
    Program configured (Except PyError String) :=
  if value = "" then return .ok value
  else match tokenOf value with
    | some _ => return .ok value
    | none => do
      let key ← keyFromSettings
      return do
        let fernet ← getFernet F key
        return encryptedPrefix ++ F.encrypt fernet nonce value

/-- `EncryptedCharField.from_db_value`. -/
def fromDbValue (value : String) : Program configured (Except PyError String) :=
  if value = "" then return .ok value
  else match tokenOf value with
    | none => return .ok value
    | some token => do
      let key ← keyFromSettings
      return do
        let fernet ← getFernet F key
        return (F.decrypt fernet token).getD ""

def loadRow (row : EndpointRow) : Program configured (Except PyError WebhookEndpoint) := do
  match ← fromDbValue F row.signingSecret with
  | .error e => return .error e
  | .ok signingSecret =>
    match ← fromDbValue F row.signingSecretPrevious with
    | .error e => return .error e
    | .ok signingSecretPrevious => return .ok { row with signingSecret, signingSecretPrevious }

/-- The rows of a query are loaded one after the other. -/
def loadRows : List EndpointRow → Program configured (Except PyError (List WebhookEndpoint))
  | [] => return .ok []
  | row :: rows => do
    match ← loadRow F row with
    | .error e => return .error e
    | .ok endpoint =>
      match ← loadRows rows with
      | .error e => return .error e
      | .ok endpoints => return .ok (endpoint :: endpoints)

def prepareRow (saving : Saving F) (endpoint : WebhookEndpoint) :
    Program configured (Except PyError EndpointRow) := do
  match ← getPrepValue F saving.signingSecret endpoint.signingSecret with
  | .error e => return .error e
  | .ok signingSecret =>
    match ← getPrepValue F saving.signingSecretPrevious endpoint.signingSecretPrevious with
    | .error e => return .error e
    | .ok signingSecretPrevious =>
      return .ok { endpoint with signingSecret, signingSecretPrevious }

/-- `endpoint.save(update_fields=["signing_secret", "signing_secret_previous"])` for each of the
instances. -/
def saveAll (saving : Nat → Saving F) : List WebhookEndpoint →
    Program configured (Except EditError Unit)
  | [] => return .ok ()
  | endpoint :: rest => do
    match ← prepareRow F (saving endpoint.pk) endpoint with
    | .error e => return .error (.raised e)
    | .ok row =>
      if (saving endpoint.pk).refuses row then return .error .databaseError
      else .call (.inr (.saveSecrets row)) fun (affected : Bool) =>
        if affected then saveAll saving rest else return .error .databaseError

/-- `rotate_encryption_key`, `Command.handle` from the resolved keys on. -/
def rotateEncryptionKey (saving : Nat → Saving F) (old new : LabelledKey) (dryRun : Bool) :
    Program configured (Except EditError Unit) :=
  if (F.parse old.key).isNone then
    return .error (.commandError (old.label ++ " is not a valid Fernet key."))
  else if (F.parse new.key).isNone then
    return .error (.commandError (new.label ++ " is not a valid Fernet key."))
  else do
    let endpoints ← usingEncryptionKey old.key
      (.call (.inr .allRows) fun (rows : List EndpointRow) => loadRows F rows)
    match endpoints with
    | .error e => return .error (.raised e)
    | .ok instances =>
      if dryRun then return .ok ()
      else usingEncryptionKey new.key (saveAll F saving (instances.filter hasSecret))

end Configured

/-! ## The check -/

inductive CheckLevel where
  | error | warning
  deriving DecidableEq

/-- A message of Django's system checks. -/
structure CheckMessage where
  level : CheckLevel
  msg : String
  hint : String
  id : String

/-- `check_encryption_key`, given Python's `repr` of a text. -/
def checkEncryptionKey (F : Fernet) (pyRepr : String → String) (setting : KeySetting)
    (settings : Settings) : List CheckMessage :=
  match setting.join.filter fun key => key ≠ "" with
  | none =>
    let message := "OPENEDX_WEBHOOK_RELAY_ENCRYPTION_KEY is not set."
    let hint := "Signing secrets are encrypted at rest with this key, so storing or " ++
      "reading one will fail without it. Generate a key with " ++
      "`openssl rand -base64 32 | tr '+/' '-_'` and set it from your " ++
      "deployment's secrets store. Rotating it later requires the " ++
      "rotate_encryption_key command, not an edit."
    if settings.secretBackend = "database" then
      [⟨.error, message, hint, "openedx_webhook_relay.E001"⟩]
    else
      [⟨.warning, message ++ " Not required by the " ++ pyRepr settings.secretBackend ++
        " secret backend, but rotation stores the previous " ++
        "signing secret locally and will fail.", hint, "openedx_webhook_relay.W001"⟩]
  | some key =>
    if (F.parse key).isNone then
      [⟨.error, "OPENEDX_WEBHOOK_RELAY_ENCRYPTION_KEY is set but is not a valid Fernet key.",
        "A Fernet key is 32 random bytes, urlsafe-base64 encoded — 44 " ++
          "characters ending in '='. Check for a truncated or " ++
          "whitespace-padded value.", "openedx_webhook_relay.E002"⟩]
    else []

end WebhookRelay
