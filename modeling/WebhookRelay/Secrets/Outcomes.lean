import WebhookRelay.Model.SecretsManager

/-!
# How edits of secrets end

What the steps of an edit return and leave behind in a deployment: loading an instance,
setting its secret under the AWS backend, and saving it. An edit that fails before it has
written anything leaves the store as it found it.
-/

namespace WebhookRelay

open Interleaving

/-- What an edit returns and leaves behind. -/
abbrev Edit.outcome {α : Type} (edit : Edit α) (outside : EditOutside) (s : SecretStore) :
    Except EditError α × SecretStore :=
  Program.outcome secretStore outside edit s

/-! ## Setting an external secret -/

section SetSecret

variable {settings : Settings} {endpoint : WebhookEndpoint} {name value : String}
  {s : SecretStore}

/-- Setting a new secret succeeds unless the old one is scheduled for deletion. -/
theorem outcome_awsSetSecret (outside : EditOutside)
    (hname : secretName settings endpoint = .ok name) (hne : value ≠ "") :
    (awsSetSecret settings endpoint value).outcome outside s =
      if s.vault name = .scheduled then (.error (.raised .secretsManagerError), s)
      else (.ok endpoint, s.keep name (.active value)) := by
  cases hstate : s.vault name with
  | absent =>
    simp [awsSetSecret, hname, hne, secretStore, respondStore, atSecret, hstate, SecretState.put,
      SecretState.create]
  | active old =>
    simp [awsSetSecret, hname, hne, secretStore, respondStore, atSecret, hstate, SecretState.put]
  | scheduled =>
    have hself := SecretStore.keep_self hstate
    simp [awsSetSecret, hname, hne, secretStore, respondStore, atSecret, hstate, SecretState.put,
      hself]

/-- Clearing a secret that is not there changes nothing. -/
theorem outcome_awsSetSecret_absent (outside : EditOutside)
    (hname : secretName settings endpoint = .ok name) (hstate : s.vault name = .absent) :
    (awsSetSecret settings endpoint "").outcome outside s = (.ok endpoint, s) := by
  have hself := SecretStore.keep_self hstate
  simp [awsSetSecret, hname, secretStore, respondStore, atSecret, hstate, SecretState.delete,
    hself]

/-- Clearing one that is there schedules it for deletion. -/
theorem outcome_awsSetSecret_clear (outside : EditOutside)
    (hname : secretName settings endpoint = .ok name) (hstate : s.vault name ≠ .absent) :
    ((awsSetSecret settings endpoint "").outcome outside s).2 = s.keep name .scheduled := by
  cases hwhich : s.vault name with
  | absent => exact absurd hwhich hstate
  | active old =>
    simp [awsSetSecret, hname, secretStore, respondStore, atSecret, hwhich, SecretState.delete]
  | scheduled =>
    cases hagain : outside.write <;>
      simp [awsSetSecret, hname, secretStore, respondStore, atSecret, hwhich,
        SecretState.delete, hagain]

/-- An endpoint without a reference has no secret to write. -/
theorem outcome_awsSetSecret_unnamed (outside : EditOutside) {e : PyError}
    (hname : secretName settings endpoint = .error e) :
    (awsSetSecret settings endpoint value).outcome outside s = (.error (.raised e), s) := by
  simp [awsSetSecret, hname]

/-- Whatever becomes of the secret, the table and the instance stay. -/
theorem outcome_awsSetSecret_frame (settings : Settings) (endpoint : WebhookEndpoint)
    (value : String) (outside : EditOutside) (s : SecretStore) :
    ((awsSetSecret settings endpoint value).outcome outside s).2.table = s.table ∧
      ∀ result, ((awsSetSecret settings endpoint value).outcome outside s).1 = .ok result →
        result = endpoint := by
  cases hname : secretName settings endpoint with
  | error e => simp [outcome_awsSetSecret_unnamed outside hname]
  | ok name =>
    by_cases hclear : value = ""
    · subst hclear
      by_cases hstate : s.vault name = .absent
      · simp [outcome_awsSetSecret_absent outside hname hstate, eq_comm]
      · refine ⟨by rw [outcome_awsSetSecret_clear outside hname hstate]; rfl, ?_⟩
        cases hanswer : (s.vault name).delete outside.write with
        | mk answer state =>
          cases answer <;> simp [awsSetSecret, hname, secretStore, respondStore, atSecret, hanswer,
            eq_comm]
    · rw [outcome_awsSetSecret outside hname hclear]
      by_cases hstate : s.vault name = .scheduled <;> simp [hstate, eq_comm]

end SetSecret

/-! ## The columns of a row -/

section Columns

variable {F : Fernet} {key : Option String}

/-- An accepted row is the instance with its secrets as they are stored. -/
theorem acceptedRow_columns {saving : Saving F} {endpoint : WebhookEndpoint} {row : EndpointRow}
    (h : acceptedRow F key saving endpoint = .ok row) :
    getPrepValue F key saving.signingSecret endpoint.signingSecret = .ok row.signingSecret ∧
      getPrepValue F key saving.signingSecretPrevious endpoint.signingSecretPrevious =
        .ok row.signingSecretPrevious ∧ row.pk = endpoint.pk := by
  obtain ⟨hcurrent, hprevious, hrow⟩ := prepareRow_inv (acceptedRow_inv h).1
  exact ⟨hcurrent, hprevious, by rw [hrow]⟩

/-- The column of a secret is not blank. -/
theorem getPrepValue_ne_empty {nonce : F.Nonce} {secret column : String} (hne : secret ≠ "")
    (h : getPrepValue F key nonce secret = .ok column) : column ≠ "" := by
  rcases getPrepValue_inv hne h with ⟨-, rfl⟩ | ⟨-, k, -, rfl⟩
  · exact hne
  · rw [Ne, String.append_eq_empty_iff]
    exact fun hempty => absurd hempty.1 (by decide)

end Columns

/-! ## Loading and saving -/

section Save

variable {F : Fernet} {key : Option String} {s : SecretStore}

theorem outcome_andThen (edit : Edit WebhookEndpoint) (next : WebhookEndpoint → Edit Unit)
    (outside : EditOutside) (s : SecretStore) :
    (andThen edit next).outcome outside s =
      match edit.outcome outside s with
      | (.error e, s') => (.error e, s')
      | (.ok endpoint, s') => (next endpoint).outcome outside s' := by
  unfold Edit.outcome
  rw [andThen, Program.outcome_bind]
  generalize Program.outcome secretStore outside edit s = r
  obtain ⟨value, s'⟩ := r
  cases value <;> rfl

/-- The row of an endpoint in the table. -/
def SecretStore.row (s : SecretStore) (pk : Nat) : Option EndpointRow :=
  s.table.find? fun row => row.pk = pk

/-- The store after a row has been saved. -/
def SecretStore.saved (s : SecretStore) (row : EndpointRow) : SecretStore :=
  { s with table := (editTable {} (.saveRow row) s.table).2 }

theorem outcome_loadThen (pk : Nat) (missing : EditError) (next : WebhookEndpoint → Edit Unit)
    (outside : EditOutside) (s : SecretStore) :
    (loadThen F key pk missing next).outcome outside s =
      match s.row pk with
      | none => (.error missing, s)
      | some row => match loadRow F key row with
        | .error e => (.error (.raised e), s)
        | .ok endpoint => (next endpoint).outcome outside s := by
  simp only [loadThen, Edit.outcome, Program.outcome_call]
  rw [show secretStore outside (.getRow pk) s = (s.row pk, s) from rfl]
  cases s.row pk with
  | none => rfl
  | some row => cases hload : loadRow F key row <;> simp [hload]

/-- The outcome of a save of which the database makes this. -/
def savedAs (accepted : Except EditError EndpointRow) (t : SecretStore) :
    Except EditError Unit × SecretStore :=
  match accepted with
  | .error e => (.error e, t)
  | .ok row => (.ok (), t.saved row)

theorem outcome_saveEndpoint (saving : Saving F) (endpoint : WebhookEndpoint)
    (outside : EditOutside) (s : SecretStore) :
    (saveEndpoint F key saving endpoint).outcome outside s =
      savedAs (acceptedRow F key saving endpoint) s := by
  rw [saveEndpoint]
  cases acceptedRow F key saving endpoint with
  | error e => rfl
  | ok row =>
    simp only [Edit.outcome, Program.outcome_call, Program.outcome_ret]
    congr 1

@[simp] theorem SecretStore.saved_vault (s : SecretStore) (row : EndpointRow) :
    (s.saved row).vault = s.vault := rfl

/-- A row that has been saved is the one in the table. -/
theorem SecretStore.row_saved (s : SecretStore) (row : EndpointRow) :
    (s.saved row).row row.pk = some row := by
  simp only [SecretStore.row, SecretStore.saved, editTable, respondEdit]
  split
  · next hany =>
    obtain ⟨other, hother, hpk⟩ := List.any_eq_true.mp hany
    have hfound : (s.table.find? ((fun other => decide (other.pk = row.pk)) ∘
        fun other => if other.pk = row.pk then row else other)).isSome := by
      rw [List.find?_isSome]
      exact ⟨other, hother, by simp_all⟩
    obtain ⟨found, hfound⟩ := Option.isSome_iff_exists.mp hfound
    have hwhich := List.find?_some hfound
    rw [updateRow, List.find?_map, hfound, Option.map_some]
    by_cases hsame : found.pk = row.pk
    · rw [if_pos hsame]
    · simp [hsame] at hwhich
  · next hnone =>
    simp only [List.any_eq_true, not_exists, not_and] at hnone
    rw [List.find?_append, List.find?_eq_none.mpr hnone]
    simp

/-- Setting a new external secret and saving the instance: if the secret cannot be set, nothing
is written, and if the row cannot be, the secret is. -/
theorem outcome_setThenSave {settings : Settings} {endpoint : WebhookEndpoint} {value : String}
    (hne : value ≠ "") (saving : Saving F) (clear : Bool) (outside : EditOutside)
    (s : SecretStore) :
    (andThen (awsSetSecret settings endpoint value) fun endpoint =>
        saveEndpoint F key saving (clearPrevious clear endpoint)).outcome outside s =
      match secretName settings endpoint with
      | .error e => (.error (.raised e), s)
      | .ok name =>
        if s.vault name = .scheduled then (.error (.raised .secretsManagerError), s)
        else (saveEndpoint F key saving (clearPrevious clear endpoint)).outcome outside
          (s.keep name (.active value)) := by
  rw [outcome_andThen]
  cases hname : secretName settings endpoint with
  | error e => rw [outcome_awsSetSecret_unnamed outside hname]
  | ok name =>
    rw [outcome_awsSetSecret outside hname hne]
    by_cases hstate : s.vault name = .scheduled
    · simp only [if_pos hstate]
    · simp only [if_neg hstate]

/-- What has been written when both succeed. -/
theorem setThenSave_inv {settings : Settings} {endpoint : WebhookEndpoint} {value : String}
    (hne : value ≠ "") {saving : Saving F} {clear : Bool} {outside : EditOutside}
    (h : ((andThen (awsSetSecret settings endpoint value) fun endpoint =>
      saveEndpoint F key saving (clearPrevious clear endpoint)).outcome outside s).1 = .ok ()) :
    ∃ name row, acceptedRow F key saving (clearPrevious clear endpoint) = .ok row ∧
      ((andThen (awsSetSecret settings endpoint value) fun endpoint =>
          saveEndpoint F key saving (clearPrevious clear endpoint)).outcome outside s).2 =
        (s.keep name (.active value)).saved row := by
  rw [outcome_setThenSave hne] at h ⊢
  cases hname : secretName settings endpoint with
  | error e =>
    rw [hname] at h
    cases h
  | ok name =>
    simp only [hname] at h ⊢
    by_cases hstate : s.vault name = .scheduled
    · rw [if_pos hstate] at h
      cases h
    · rw [if_neg hstate, outcome_saveEndpoint] at h ⊢
      cases haccepted : acceptedRow F key saving (clearPrevious clear endpoint) with
      | error e =>
        rw [haccepted] at h
        cases h
      | ok row => exact ⟨name, row, rfl, rfl⟩

end Save

/-! ## The two rotations with a new secret -/

section NewSecret

variable {F : Fernet} {settings : Settings} {key : Option String} {saving : Saving F}
  {pk : Nat} {row : EndpointRow} {endpoint : WebhookEndpoint} {s : SecretStore}

/-- The change form, given a new secret that is not cleared. -/
theorem outcome_admin {backend : SecretBackend} (hbackend : getSecretBackend settings = .ok backend)
    (hrow : s.row pk = some row) (hload : loadRow F key row = .ok endpoint) {form : AdminForm}
    (hnew : form.rawNewSecret ≠ "") (hclear : form.clearSigningSecret = false)
    (outside : EditOutside) :
    (adminSave F settings key saving pk form).outcome outside s =
      match form.validate endpoint with
      | .error e => (.error e, s)
      | .ok () => (andThen (backend.setSecret settings
          (keepPrevious (form.rotateKeepingPrevious && backend = .database)
            endpoint.signingSecret (form.construct endpoint)) form.rawNewSecret)
        fun obj => saveEndpoint F key saving
          (clearPrevious form.clearPreviousSigningSecret obj)).outcome outside s := by
  rw [adminSave, outcome_loadThen, hrow]
  simp only [hload]
  cases form.validate endpoint with
  | error e => rfl
  | ok _ =>
    simp only [hbackend, saveModelSecrets, if_pos hnew, AdminForm.cleanedSecret, hclear,
      Bool.false_eq_true, if_false, if_neg hnew]

end NewSecret

/-! ## The smallest deployment -/

/-- The settings of a site that keeps its secrets in AWS. -/
def awsSettings : Settings := { secretBackend := "aws_secrets_manager" }

theorem getSecretBackend_awsSettings : getSecretBackend awsSettings = .ok .awsSecretsManager := by
  decide

/-- A deployment with one endpoint and no secrets. -/
def noSecrets : SecretStore := ⟨[newEndpoint], fun _ => .absent⟩

/-- The change form of the only endpoint with a new secret. -/
def givingForm : AdminForm := { newEndpoint.shown with signingSecret := "hunter2" }

theorem validate_givingForm : givingForm.validate newEndpoint = .ok () := by
  have hlength : ¬ (givingForm.construct newEndpoint).signingSecret.length > 1024 := by decide
  rw [AdminForm.validate, if_neg (by decide +kernel), fullClean, if_neg hlength]
  simp [WebhookEndpoint.clean, AdminForm.construct, givingForm, WebhookEndpoint.shown, newEndpoint]

end WebhookRelay
