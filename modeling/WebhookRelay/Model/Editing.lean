import WebhookRelay.Model.Fields
import WebhookRelay.Model.SecretsBackend

/-!
# Commands and admin pages that edit endpoints

The writing half of `secrets_backend.py`, the commands `rotate_signing_secret` and
`rotate_encryption_key` and the save of the admin's change form, as programs over the table
and the secrets manager. A row is loaded and saved by one statement each; what happens to
the instance in between is computed in memory.

What a command prints is left out, and so is how `rotate_encryption_key` reads its two key
files: its keys are given with the labels of the options they came from.
-/

namespace WebhookRelay

open Interleaving

/-- How a write to the secrets manager ends. -/
inductive WriteAnswer where
  | done
  | resourceNotFound
  | failed

inductive EditOp where
  /-- `objects.get(pk=…)`, `none` when it raises `DoesNotExist` -/
  | getRow (pk : Nat)
  /-- `objects.all()` -/
  | allRows
  /-- `save()` -/
  | saveRow (row : EndpointRow)
  /-- `save(update_fields=["signing_secret", "signing_secret_previous"])`, `false` when no
  row was affected -/
  | saveSecrets (row : EndpointRow)
  /-- `client.delete_secret(SecretId=…)` -/
  | deleteSecret (secretId : String)
  /-- `client.put_secret_value(SecretId=…, SecretString=…)` -/
  | putSecretValue (secretId secretString : String)
  /-- `client.create_secret(Name=…, SecretString=…)` -/
  | createSecret (name secretString : String)

@[reducible] def EditOp.Answer : EditOp → Type
  | .getRow _ => Option EndpointRow
  | .allRows => List EndpointRow
  | .saveRow _ => Unit
  | .saveSecrets _ => Bool
  | .deleteSecret _ | .putSecretValue _ _ | .createSecret _ _ => WriteAnswer

abbrev editing : Signature := ⟨EditOp, EditOp.Answer⟩

/-- Why an edit does not succeed. -/
inductive EditError where
  | commandError (message : String)
  | raised (error : PyError)
  | unreadableFile
  | invalidForm (field message : String)
  | notFound
  | databaseError

abbrev Edit (α : Type) := Program editing (Except EditError α)

/-! ## Writing secrets -/

/-- `AWSSecretsManagerBackend.set_secret`. -/
def awsSetSecret (settings : Settings) (endpoint : WebhookEndpoint) (plaintext : String) :
    Edit WebhookEndpoint :=
  match secretName settings endpoint with
  | .error e => .ret (.error (.raised e))
  | .ok name =>
    if plaintext = "" then
      .call (.deleteSecret name) fun
        | .done | .resourceNotFound => .ret (.ok endpoint)
        | .failed => .ret (.error (.raised .secretsManagerError))
    else
      .call (.putSecretValue name plaintext) fun
        | .done => .ret (.ok endpoint)
        | .resourceNotFound => .call (.createSecret name plaintext) fun
          | .done => .ret (.ok endpoint)
          | _ => .ret (.error (.raised .secretsManagerError))
        | .failed => .ret (.error (.raised .secretsManagerError))

/-- `set_secret` of either backend, with the instance as it leaves it. -/
def SecretBackend.setSecret (backend : SecretBackend) (settings : Settings)
    (endpoint : WebhookEndpoint) (plaintext : String) : Edit WebhookEndpoint :=
  match backend with
  | .database => .ret (.ok { endpoint with signingSecret := plaintext })
  | .awsSecretsManager => awsSetSecret settings endpoint plaintext

/-- Go on with the instance of an edit that has not failed. -/
def andThen (edit : Edit WebhookEndpoint) (next : WebhookEndpoint → Edit Unit) : Edit Unit :=
  Program.bind edit fun
    | .error e => .ret (.error e)
    | .ok endpoint => next endpoint

@[simp] theorem andThen_ok (endpoint : WebhookEndpoint) (next : WebhookEndpoint → Edit Unit) :
    andThen (.ret (.ok endpoint)) next = next endpoint := rfl

@[simp] theorem andThen_error (e : EditError) (next : WebhookEndpoint → Edit Unit) :
    andThen (.ret (.error e)) next = .ret (.error e) := rfl

/-- The white space of Python's `str.isspace`. -/
def isSpace (c : Char) : Bool :=
  let n := c.toNat
  (9 ≤ n && n ≤ 13) || (28 ≤ n && n ≤ 32) || n = 0x85 || n = 0xa0 || n = 0x1680 ||
    (0x2000 ≤ n && n ≤ 0x200a) || n = 0x2028 || n = 0x2029 || n = 0x202f || n = 0x205f ||
      n = 0x3000

/-- `text.strip()`. -/
def strip (text : String) : String :=
  String.ofList ((text.toList.dropWhile isSpace).rdropWhile isSpace)

section Commands

variable (F : Fernet)

/-- Load the row of an endpoint, and go on with the instance. -/
def loadThen (key : Option String) (pk : Nat) (missing : EditError)
    (next : WebhookEndpoint → Edit Unit) : Edit Unit :=
  .call (.getRow pk) fun
    | none => .ret (.error missing)
    | some row => match loadRow F key row with
      | .error e => .ret (.error (.raised e))
      | .ok endpoint => next endpoint

/-- One of the JSON columns is null; none of them may be. -/
def WebhookEndpoint.hasNull (self : WebhookEndpoint) : Bool :=
  self.customHeaders.isNull || self.piiAllowlist.isNull || self.piiDenylist.isNull

/-- The row that the database stores for an instance, unless it refuses it. -/
def acceptedRow (key : Option String) (saving : Saving F) (endpoint : WebhookEndpoint) :
    Except EditError EndpointRow :=
  match prepareRow F key saving endpoint with
  | .error e => .error (.raised e)
  | .ok row => if row.hasNull || saving.refuses row then .error .databaseError else .ok row

variable {F} in
theorem acceptedRow_inv {key : Option String} {saving : Saving F} {endpoint : WebhookEndpoint}
    {row : EndpointRow} (h : acceptedRow F key saving endpoint = .ok row) :
    prepareRow F key saving endpoint = .ok row ∧ row.hasNull = false ∧
      saving.refuses row = false := by
  unfold acceptedRow at h
  split at h
  · cases h
  · next prepared hprepared =>
    split at h
    · cases h
    · next haccepted =>
      obtain rfl := Except.ok.inj h
      rw [Bool.not_eq_true, Bool.or_eq_false_iff] at haccepted
      exact ⟨hprepared, haccepted⟩

/-- `endpoint.save()`. -/
def saveEndpoint (key : Option String) (saving : Saving F) (endpoint : WebhookEndpoint) :
    Edit Unit :=
  match acceptedRow F key saving endpoint with
  | .error e => .ret (.error e)
  | .ok row => .call (.saveRow row) fun _ => .ret (.ok ())

variable {F} in
/-- On a usable key a save is refused, or stores both secrets under the key. -/
theorem saveEndpoint_cases {key : Option String} {k : F.Key} (hkey : getFernet F key = .ok k)
    (saving : Saving F) (endpoint : WebhookEndpoint) :
    saveEndpoint F key saving endpoint = .ret (.error .databaseError) ∨
      saveEndpoint F key saving endpoint = .call (.saveRow { endpoint with
        signingSecret := stored k saving.signingSecret endpoint.signingSecret
        signingSecretPrevious :=
          stored k saving.signingSecretPrevious endpoint.signingSecretPrevious })
        fun _ => .ret (.ok ()) := by
  simp only [saveEndpoint, acceptedRow, prepareRow_ok hkey]
  split
  · next hrefused =>
    split at hrefused
    · obtain rfl := Except.error.inj hrefused
      exact .inl rfl
    · cases hrefused
  · next haccepted =>
    split at haccepted
    · cases haccepted
    · obtain rfl := Except.ok.inj haccepted
      exact .inr rfl

/-! ## `rotate_signing_secret` -/

/-- A file named on the command line, where an empty name is none; one that cannot be read has no
contents. -/
structure SecretFile where
  path : String
  contents : Option String

structure RotateOptions where
  endpointId : Nat
  newSecretFile : Option SecretFile := none
  clearPrevious : Bool := false
  noKeepPrevious : Bool := false

/-- The old secret moves to the previous slot, if there is one and it is to be kept. -/
def keepPrevious (keep : Bool) (oldSecret : String) (endpoint : WebhookEndpoint) :
    WebhookEndpoint :=
  if keep && oldSecret ≠ "" then { endpoint with signingSecretPrevious := oldSecret }
  else endpoint

@[simp] theorem keepPrevious_pk (keep : Bool) (oldSecret : String) (endpoint : WebhookEndpoint) :
    (keepPrevious keep oldSecret endpoint).pk = endpoint.pk := by
  unfold keepPrevious
  split <;> rfl

/-- The branch of `rotate_signing_secret` that sets a new secret. -/
def setNewSecret (settings : Settings) (backend : SecretBackend) (noKeepPrevious : Bool)
    (file : SecretFile) (endpoint : WebhookEndpoint) : Edit WebhookEndpoint :=
  match file.contents.map strip with
  | none => .ret (.error .unreadableFile)
  | some newSecret =>
    if newSecret = "" then .ret (.error (.commandError (file.path ++ " is empty.")))
    else if !noKeepPrevious && backend ≠ .database then
      .ret (.error (.commandError ("Keeping the previous secret is only supported by the " ++
        "'database' secret backend, not AWSSecretsManagerBackend. " ++
        "Re-run with --no-keep-previous to accept an immediate " ++
        "cutover, and coordinate the receiver before you do — there " ++
        "will be no window where both signatures are accepted.")))
    else
      -- the old secret is only asked for here, under the database backend
      backend.setSecret settings (keepPrevious (!noKeepPrevious) endpoint.signingSecret endpoint)
        newSecret

/-- The previous secret is dropped on request. -/
def clearPrevious (clear : Bool) (endpoint : WebhookEndpoint) : WebhookEndpoint :=
  if clear then { endpoint with signingSecretPrevious := "" } else endpoint

@[simp] theorem clearPrevious_pk (clear : Bool) (endpoint : WebhookEndpoint) :
    (clearPrevious clear endpoint).pk = endpoint.pk := by
  cases clear <;> rfl

@[simp] theorem clearPrevious_signingSecret (clear : Bool) (endpoint : WebhookEndpoint) :
    (clearPrevious clear endpoint).signingSecret = endpoint.signingSecret := by
  cases clear <;> rfl

/-- `rotate_signing_secret`, `Command.handle`. -/
def rotateSigningSecret (settings : Settings) (key : Option String) (saving : Saving F)
    (options : RotateOptions) : Edit Unit :=
  loadThen F key options.endpointId
    (.commandError ("No WebhookEndpoint with id=" ++ toString options.endpointId ++ "."))
    fun endpoint =>
      if options.newSecretFile.isNone && !options.clearPrevious then
        .ret (.error (.commandError "Pass --new-secret-file, --clear-previous, or both."))
      else match getSecretBackend settings with
        | .error e => .ret (.error (.raised e))
        | .ok backend =>
          andThen (match options.newSecretFile with
              | none => .ret (.ok endpoint)
              | some file => setNewSecret settings backend options.noKeepPrevious file endpoint)
            fun endpoint => saveEndpoint F key saving (clearPrevious options.clearPrevious endpoint)

/-! ## The change form of the admin -/

/-- What the form submits: the editable fields that a delivery reads, as cleaned by their
form fields, and the inputs for the secrets. -/
structure AdminForm where
  webhookUrl : String
  enabled : Bool
  customHeaders : Json
  onlyOnPassing : Bool
  timeoutSeconds : Nat
  maxRetries : Nat
  retainPayloadSnapshot : Bool
  circuitBreakerEnabled : Bool
  circuitBreakerFailureThreshold : Nat
  circuitBreakerCooldownSeconds : Nat
  piiAllowlist : Json
  piiDenylist : Json
  signingSecret : String := ""
  clearSigningSecret : Bool := false
  rotateKeepingPrevious : Bool := true
  clearPreviousSigningSecret : Bool := false

namespace AdminForm

/-- The submitted secret, as the form's `CharField` strips it. -/
def rawNewSecret (form : AdminForm) : String := strip form.signingSecret

/-- `cleaned_data["signing_secret"]` after `clean` on an instance with the given secret. -/
def cleanedSecret (form : AdminForm) (oldSecret : String) : String :=
  if form.clearSigningSecret then ""
  else if form.rawNewSecret = "" then oldSecret
  else form.rawNewSecret

/-- `construct_instance`: the cleaned values of the form's fields go to the instance. The
previous secret is excluded, and the circuit and the secret reference are not editable. -/
def construct (form : AdminForm) (endpoint : WebhookEndpoint) : WebhookEndpoint :=
  { endpoint with
    webhookUrl := form.webhookUrl
    enabled := form.enabled
    customHeaders := form.customHeaders
    onlyOnPassing := form.onlyOnPassing
    timeoutSeconds := form.timeoutSeconds
    maxRetries := form.maxRetries
    retainPayloadSnapshot := form.retainPayloadSnapshot
    circuitBreakerEnabled := form.circuitBreakerEnabled
    circuitBreakerFailureThreshold := form.circuitBreakerFailureThreshold
    circuitBreakerCooldownSeconds := form.circuitBreakerCooldownSeconds
    piiAllowlist := form.piiAllowlist
    piiDenylist := form.piiDenylist
    signingSecret := form.cleanedSecret endpoint.signingSecret }

end AdminForm

/-- The change form of an instance, submitted as it is shown. -/
def WebhookEndpoint.shown (self : WebhookEndpoint) : AdminForm where
  webhookUrl := self.webhookUrl
  enabled := self.enabled
  customHeaders := self.customHeaders
  onlyOnPassing := self.onlyOnPassing
  timeoutSeconds := self.timeoutSeconds
  maxRetries := self.maxRetries
  retainPayloadSnapshot := self.retainPayloadSnapshot
  circuitBreakerEnabled := self.circuitBreakerEnabled
  circuitBreakerFailureThreshold := self.circuitBreakerFailureThreshold
  circuitBreakerCooldownSeconds := self.circuitBreakerCooldownSeconds
  piiAllowlist := self.piiAllowlist
  piiDenylist := self.piiDenylist

/-- `WebhookEndpoint.clean`. -/
def WebhookEndpoint.clean (self : WebhookEndpoint) : Except EditError Unit :=
  if self.webhookUrl ≠ "" && !self.webhookUrl.startsWith "https://" then
    .error (.invalidForm "webhook_url" "Webhook URL must use https:// in production.")
  else match self.customHeaders with
    | .obj _ | .null => match self.piiAllowlist with
      | .arr _ | .null => match self.piiDenylist with
        | .arr _ | .null => .ok ()
        | _ => .error (.invalidForm "pii_denylist" "Must be a JSON array of strings.")
      | _ => .error (.invalidForm "pii_allowlist" "Must be a JSON array of strings.")
    | _ => .error (.invalidForm "custom_headers" "Must be a JSON object.")

/-- The validation of the constructed instance: the length of its secret, then `clean`. -/
def fullClean (endpoint : WebhookEndpoint) : Except EditError Unit :=
  if endpoint.signingSecret.length > 1024 then
    .error (.invalidForm "signing_secret" ("Ensure this value has at most 1024 characters (it has "
      ++ toString endpoint.signingSecret.length ++ ")."))
  else endpoint.clean

/-- `save_model` up to its call of the inherited one: the secrets of the instance. -/
def saveModelSecrets (settings : Settings) (backend : SecretBackend) (form : AdminForm)
    (oldSecret : String) (obj : WebhookEndpoint) : Edit WebhookEndpoint :=
  if form.rawNewSecret ≠ "" then
    backend.setSecret settings
      (keepPrevious (form.rotateKeepingPrevious && backend = .database) oldSecret obj)
      (form.cleanedSecret oldSecret)
  else if form.clearSigningSecret then backend.setSecret settings obj ""
  else .ret (.ok obj)

/-- The validation of the form: its `CharField` accepts no null characters, and the instance
must be valid. -/
def AdminForm.validate (form : AdminForm) (endpoint : WebhookEndpoint) : Except EditError Unit :=
  if '\x00' ∈ form.rawNewSecret.toList then
    .error (.invalidForm "signing_secret" "Null characters are not allowed.")
  else fullClean (form.construct endpoint)

/-- Saving the change form of an endpoint: load the instance, clean the form into it,
`save_model`. -/
def adminSave (settings : Settings) (key : Option String) (saving : Saving F) (pk : Nat)
    (form : AdminForm) : Edit Unit :=
  loadThen F key pk .notFound fun endpoint =>
    let obj := form.construct endpoint
    match form.validate endpoint with
    | .error e => .ret (.error e)
    | .ok () => match getSecretBackend settings with
      | .error e => .ret (.error (.raised e))
      | .ok backend =>
        andThen (saveModelSecrets settings backend form endpoint.signingSecret obj) fun obj =>
          saveEndpoint F key saving (clearPrevious form.clearPreviousSigningSecret obj)

/-! ## `rotate_encryption_key` -/

/-- A key with the label of the option it was given by. -/
structure LabelledKey where
  label : String
  key : String

/-- Write the secrets of the instances under the new key, one row at a time. Of the other
columns nothing is written. -/
def saveAll (newKey : String) (saving : Nat → Saving F) : List WebhookEndpoint → Edit Unit
  | [] => .ret (.ok ())
  | endpoint :: rest => match prepareRow F (some newKey) (saving endpoint.pk) endpoint with
    | .error e => .ret (.error (.raised e))
    | .ok row =>
      if (saving endpoint.pk).refuses row then .ret (.error .databaseError)
      else .call (.saveSecrets row) fun affected =>
        if affected then saveAll newKey saving rest else .ret (.error .databaseError)

/-- The instances that are rewritten: those with a secret, as far as they were loaded. -/
def hasSecret (endpoint : WebhookEndpoint) : Bool :=
  endpoint.signingSecret ≠ "" || endpoint.signingSecretPrevious ≠ ""

/-- `rotate_encryption_key`, `Command.handle` from the resolved keys on. Reading the
attributes of a loaded instance raises nothing, so there are no decrypt errors to report. -/
def rotateEncryptionKey (saving : Nat → Saving F) (old new : LabelledKey) (dryRun : Bool) :
    Edit Unit :=
  if (F.parse old.key).isNone then
    .ret (.error (.commandError (old.label ++ " is not a valid Fernet key.")))
  else if (F.parse new.key).isNone then
    .ret (.error (.commandError (new.label ++ " is not a valid Fernet key.")))
  else .call .allRows fun rows => match rows.mapM (loadRow F (some old.key)) with
    | .error e => .ret (.error (.raised e))
    | .ok instances =>
      if dryRun then .ret (.ok ())
      else saveAll F new.key saving (instances.filter hasSecret)

end Commands

/-- An edit that may set a new secret: the command, or the change form of the admin. -/
inductive SecretEdit (F : Fernet) where
  | command (saving : Saving F) (options : RotateOptions)
  | admin (saving : Saving F) (form : AdminForm)

/-- The edit of the endpoint with a primary key. -/
def SecretEdit.run {F : Fernet} (settings : Settings) (key : Option String) (pk : Nat) :
    SecretEdit F → Edit Unit
  | .command saving options =>
    rotateSigningSecret F settings key saving { options with endpointId := pk }
  | .admin saving form => adminSave F settings key saving pk form

/-! ## The table -/

/-- What the outside decides about an edit: the order in which a query lists the rows, and how
the secrets manager answers. -/
structure EditOutside where
  order : List EndpointRow → List EndpointRow := id
  order_perm : ∀ table, (order table).Perm table := by exact fun table => List.Perm.refl table
  write : WriteAnswer := .done

/-- Overwrite the rows with a primary key. -/
def updateRow (pk : Nat) (f : EndpointRow → EndpointRow) (table : List EndpointRow) :
    List EndpointRow :=
  table.map fun row => if row.pk = pk then f row else row

/-- The secrets of one row in the place of those of another. -/
def withSecretsOf (saved row : EndpointRow) : EndpointRow :=
  { row with
    signingSecret := saved.signingSecret
    signingSecretPrevious := saved.signingSecretPrevious }

/-- How a table of endpoints answers; a row that is saved and not there is inserted. -/
def respondEdit (outside : EditOutside) : (op : EditOp) → List EndpointRow →
    op.Answer × List EndpointRow
  | .getRow pk, table => (table.find? fun row => row.pk = pk, table)
  | .allRows, table => (outside.order table, table)
  | .saveRow saved, table =>
    if table.any fun row => row.pk = saved.pk
    then ((), updateRow saved.pk (fun _ => saved) table) else ((), table ++ [saved])
  | .saveSecrets saved, table =>
    (table.any fun row => row.pk = saved.pk, updateRow saved.pk (withSecretsOf saved) table)
  | .deleteSecret _, table => (outside.write, table)
  | .putSecretValue _ _, table => (outside.write, table)
  | .createSecret _ _, table => (outside.write, table)

def editTable : Program.Handler editing EditOutside (List EndpointRow) := respondEdit

end WebhookRelay
