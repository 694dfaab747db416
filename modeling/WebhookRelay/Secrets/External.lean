import WebhookRelay.Secrets.Outcomes

/-!
# Secrets outside of the database

Under the AWS backend the two secret columns of an endpoint should stay blank. The command
never writes them. The change form of the admin shows the column as a field of its own name,
though, so the submitted secret reaches the instance before `save_model` runs and is saved with
the rest of the row, next to the copy that the backend has stored.

## Main results

* `external_columns_blank` — the columns stay blank along every sequence of edits in which no
  save of the change form gives a new secret, and valid saves leave no other sequence.
-/

namespace WebhookRelay

variable {F : Fernet}

/-- An edit of the endpoint with the key that is configured and what the outside decides. -/
structure SecretStep (F : Fernet) where
  edit : SecretEdit F
  key : Option String := none
  outside : EditOutside := {}

/-- Both secret columns of the endpoint are blank. -/
def BlankColumns (pk : Nat) (s : SecretStore) : Prop :=
  ∀ row ∈ s.table, row.pk = pk → row.signingSecret = "" ∧ row.signingSecretPrevious = ""

namespace SecretEdit

/-- The edit is a save of the change form that gives a new secret and does not clear it. -/
def GivesByAdmin : SecretEdit F → Prop
  | .command _ _ => False
  | .admin _ form => form.rawNewSecret ≠ "" ∧ form.clearSigningSecret = false

end SecretEdit

namespace SecretStep

variable (settings : Settings) (pk : Nat)

/-- How the edit ends. -/
def outcome (step : SecretStep F) (s : SecretStore) : Except EditError Unit × SecretStore :=
  (step.edit.run settings step.key pk).outcome step.outside s

/-- The columns are blank before, between and after the edits. -/
def StaysBlank : List (SecretStep F) → SecretStore → Prop
  | [], s => BlankColumns pk s
  | step :: steps, s => BlankColumns pk s ∧ StaysBlank steps (step.outcome settings pk s).2

/-- Every save of the change form succeeds; a run of the command may be refused. -/
def ValidSaves : List (SecretStep F) → SecretStore → Prop
  | [], _ => True
  | step :: steps, s =>
    (∀ saving form, step.edit = .admin saving form → (step.outcome settings pk s).1 = .ok ()) ∧
      ValidSaves steps (step.outcome settings pk s).2

end SecretStep

/-! ## Writing an instance -/

section Write

variable {key : Option String} {pk : Nat} {s : SecretStore} {endpoint : WebhookEndpoint}

/-- The instance has no secrets in memory. -/
def WebhookEndpoint.Blank (self : WebhookEndpoint) : Prop :=
  self.signingSecret = "" ∧ self.signingSecretPrevious = ""

theorem WebhookEndpoint.Blank.clearPrevious (h : endpoint.Blank) (clear : Bool) :
    (WebhookRelay.clearPrevious clear endpoint).Blank := by
  cases clear
  · exact h
  · exact ⟨h.1, rfl⟩

theorem BlankColumns.congr {s' : SecretStore} (h : BlankColumns pk s)
    (htable : s'.table = s.table) : BlankColumns pk s' := by
  unfold BlankColumns
  rwa [htable]

theorem BlankColumns.saved {row : EndpointRow} (h : BlankColumns pk s) (hrow : row.Blank) :
    BlankColumns pk (s.saved row) := by
  intro other hother hpk
  simp only [SecretStore.saved, editTable, respondEdit] at hother
  split at hother
  · obtain ⟨before, hbefore, rfl⟩ := List.mem_map.mp hother
    by_cases hsame : before.pk = row.pk
    · rw [if_pos hsame]
      exact hrow
    · rw [if_neg hsame] at hpk ⊢
      exact h before hbefore hpk
  · rcases List.mem_append.mp hother with hold | hnew
    · exact h other hold hpk
    · obtain rfl := List.mem_singleton.mp hnew
      exact hrow

theorem BlankColumns.saveEndpoint (h : BlankColumns pk s) (hblank : endpoint.Blank)
    (saving : Saving F) (outside : EditOutside) :
    BlankColumns pk ((saveEndpoint F key saving endpoint).outcome outside s).2 := by
  rw [outcome_saveEndpoint]
  cases haccepted : acceptedRow F key saving endpoint with
  | error e => exact h
  | ok row =>
    obtain ⟨hcurrent, hprevious, -⟩ := acceptedRow_columns haccepted
    rw [hblank.1] at hcurrent
    rw [hblank.2] at hprevious
    exact h.saved ⟨(Except.ok.inj hcurrent).symm, (Except.ok.inj hprevious).symm⟩

theorem loadRow_blank {row : EndpointRow} (hrow : row.Blank)
    (hload : loadRow F key row = .ok endpoint) : endpoint.Blank := by
  obtain ⟨hcurrent, hprevious, -⟩ := loadRow_inv hload
  rw [hrow.1] at hcurrent
  rw [hrow.2] at hprevious
  exact ⟨(Except.ok.inj hcurrent).symm, (Except.ok.inj hprevious).symm⟩

/-- An edit of a loaded instance finds it blank. -/
theorem BlankColumns.loadThen (h : BlankColumns pk s) (missing : EditError)
    (next : WebhookEndpoint → Edit Unit) (outside : EditOutside)
    (hnext : ∀ endpoint : WebhookEndpoint, endpoint.Blank →
      BlankColumns pk ((next endpoint).outcome outside s).2) :
    BlankColumns pk ((loadThen F key pk missing next).outcome outside s).2 := by
  rw [outcome_loadThen]
  cases hrow : s.row pk with
  | none => exact h
  | some row =>
    have hpk : row.pk = pk := by simpa using List.find?_some hrow
    cases hload : loadRow F key row with
    | error e => simpa only [hload] using h
    | ok endpoint =>
      simp only [hload]
      exact hnext endpoint (loadRow_blank (h row (List.mem_of_find?_eq_some hrow) hpk) hload)

/-- Setting the external secret leaves the columns alone, and the instance as it is. -/
theorem BlankColumns.setSecret (h : BlankColumns pk s) (settings : Settings)
    (plaintext : String) (saving : Saving F) (clear : Bool) (outside : EditOutside)
    (hblank : endpoint.Blank) :
    BlankColumns pk ((andThen (awsSetSecret settings endpoint plaintext) fun endpoint =>
      WebhookRelay.saveEndpoint F key saving (clearPrevious clear endpoint)).outcome
        outside s).2 := by
  obtain ⟨htable, hresult⟩ :=
    outcome_awsSetSecret_frame settings endpoint plaintext outside s
  rw [outcome_andThen]
  split
  · next e s' hcall =>
    rw [hcall] at htable
    exact h.congr htable
  · next result s' hcall =>
    rw [hcall] at htable hresult
    obtain rfl := hresult result rfl
    exact (h.congr htable).saveEndpoint (hblank.clearPrevious clear) saving outside

end Write

/-! ## One edit -/

section Step

variable {settings : Settings} {key : Option String} {pk : Nat} {s : SecretStore}

/-- The command refuses to keep a previous secret, and sets the new one outside. -/
theorem command_blank (hbackend : getSecretBackend settings = .ok .awsSecretsManager)
    (h : BlankColumns pk s) (saving : Saving F) (options : RotateOptions)
    (outside : EditOutside) :
    BlankColumns pk (((SecretEdit.command saving options).run settings key pk).outcome
      outside s).2 := by
  rw [SecretEdit.run, rotateSigningSecret]
  refine h.loadThen _ _ outside fun endpoint hblank => ?_
  split
  · exact h
  · simp only [hbackend]
    cases options.newSecretFile with
    | none => exact h.saveEndpoint (hblank.clearPrevious _) saving outside
    | some file =>
      simp only [setNewSecret]
      cases file.contents.map strip with
      | none => exact h
      | some secret =>
        by_cases hempty : secret = ""
        · subst hempty
          exact h
        · cases hkeep : options.noKeepPrevious with
          | false =>
            simp only [if_neg hempty]
            exact h
          | true =>
            simp only [if_neg hempty]
            exact h.setSecret settings secret saving options.clearPrevious outside hblank

/-- What the form puts into the column of a blank instance. -/
theorem cleanedSecret_blank {form : AdminForm} (saving : Saving F)
    (h : ¬ (SecretEdit.admin saving form).GivesByAdmin) : form.cleanedSecret "" = "" := by
  unfold AdminForm.cleanedSecret
  split
  · rfl
  · next hclear =>
    split
    · rfl
    · next hnew => exact absurd ⟨hnew, by simpa using hclear⟩ h

/-- A save of the change form without a new secret leaves the column blank. -/
theorem admin_blank (hbackend : getSecretBackend settings = .ok .awsSecretsManager)
    (h : BlankColumns pk s) {saving : Saving F} {form : AdminForm}
    (hgives : ¬ (SecretEdit.admin saving form).GivesByAdmin) (outside : EditOutside) :
    BlankColumns pk (((SecretEdit.admin saving form).run settings key pk).outcome
      outside s).2 := by
  rw [SecretEdit.run, adminSave]
  refine h.loadThen _ _ outside fun endpoint hblank => ?_
  have hobj : (form.construct endpoint).Blank := by
    refine ⟨?_, hblank.2⟩
    rw [AdminForm.construct, hblank.1]
    exact cleanedSecret_blank saving hgives
  dsimp only
  cases form.validate endpoint with
  | error e => exact h
  | ok _ =>
    simp only [hbackend, saveModelSecrets]
    split
    · have hkeep : (form.rotateKeepingPrevious &&
          decide (SecretBackend.awsSecretsManager = .database)) = false := by simp
      rw [hkeep]
      exact h.setSecret settings _ saving form.clearPreviousSigningSecret outside hobj
    · split
      · exact h.setSecret settings "" saving form.clearPreviousSigningSecret outside hobj
      · exact h.saveEndpoint (hobj.clearPrevious _) saving outside

/-- An edit that succeeds has loaded the endpoint. -/
theorem loaded_of_ok {edit : SecretEdit F} {outside : EditOutside}
    (hvalue : ((edit.run settings key pk).outcome outside s).1 = .ok ()) :
    ∃ row endpoint, s.row pk = some row ∧ loadRow F key row = .ok endpoint := by
  have hload : ∀ missing next,
      ((loadThen F key pk missing next).outcome outside s).1 = .ok () →
        ∃ row endpoint, s.row pk = some row ∧ loadRow F key row = .ok endpoint := by
    intro missing next hok
    rw [outcome_loadThen] at hok
    split at hok
    · cases hok
    · next row hrow =>
      split at hok
      · cases hok
      · next endpoint hload => exact ⟨row, endpoint, hrow, hload⟩
  cases edit with
  | command saving options => exact hload _ _ hvalue
  | admin saving form => exact hload _ _ hvalue

/-- A save of the change form that gives a new secret and succeeds puts it into the column. -/
theorem admin_gives (hbackend : getSecretBackend settings = .ok .awsSecretsManager)
    {saving : Saving F} {form : AdminForm}
    (hgives : (SecretEdit.admin saving form).GivesByAdmin) {outside : EditOutside}
    (hvalue : (((SecretEdit.admin saving form).run settings key pk).outcome outside s).1 =
      .ok ()) :
    ¬ BlankColumns pk (((SecretEdit.admin saving form).run settings key pk).outcome
      outside s).2 := by
  obtain ⟨hnew, hclear⟩ := hgives
  obtain ⟨row, endpoint, hrow, hload⟩ := loaded_of_ok hvalue
  have hpk : row.pk = pk := by simpa using List.find?_some hrow
  have hendpoint : endpoint.pk = row.pk := by rw [(loadRow_inv hload).2.2]
  have hkeep : (form.rotateKeepingPrevious &&
      decide (SecretBackend.awsSecretsManager = .database)) = false := by simp
  rw [SecretEdit.run, outcome_admin hbackend hrow hload hnew hclear, hkeep] at hvalue ⊢
  cases hvalid : form.validate endpoint with
  | error e =>
    rw [hvalid] at hvalue
    cases hvalue
  | ok _ =>
    rw [hvalid] at hvalue
    rw [show keepPrevious false endpoint.signingSecret (form.construct endpoint) =
      form.construct endpoint from rfl, SecretBackend.setSecret] at hvalue ⊢
    obtain ⟨name, saved, haccepted, hstore⟩ := setThenSave_inv hnew hvalue
    obtain ⟨hcolumn, -, hsavedpk⟩ := acceptedRow_columns haccepted
    have hsecret : (form.construct endpoint).signingSecret = form.rawNewSecret := by
      simp [AdminForm.construct, AdminForm.cleanedSecret, hclear, hnew]
    rw [clearPrevious_signingSecret, hsecret] at hcolumn
    simp only [hstore]
    intro hblank
    have hsaved : saved.pk = pk :=
      hsavedpk.trans ((clearPrevious_pk ..).trans (hendpoint.trans hpk))
    have hmem := List.mem_of_find?_eq_some
      (SecretStore.row_saved (s.keep name (.active form.rawNewSecret)) saved)
    exact getPrepValue_ne_empty hnew hcolumn (hblank saved hmem hsaved).1

end Step

/-! ## Every sequence of edits -/

section Sequence

variable {settings : Settings} {pk : Nat} {steps : List (SecretStep F)} {s : SecretStore}

open SecretStep

theorem StaysBlank.start (h : StaysBlank settings pk steps s) : BlankColumns pk s := by
  cases steps with
  | nil => exact h
  | cons step steps => exact h.1

/-- Edits that do not give a new secret by the change form leave the columns blank. -/
theorem staysBlank_of_not_gives (hbackend : getSecretBackend settings = .ok .awsSecretsManager)
    (hblank : BlankColumns pk s) (hsteps : ∀ step ∈ steps, ¬ step.edit.GivesByAdmin) :
    StaysBlank settings pk steps s := by
  induction steps generalizing s with
  | nil => exact hblank
  | cons step steps ih =>
    rw [List.forall_mem_cons] at hsteps
    refine ⟨hblank, ih ?_ hsteps.2⟩
    rw [SecretStep.outcome]
    cases hedit : step.edit with
    | command saving options => exact command_blank hbackend hblank saving options step.outside
    | admin saving form =>
      apply admin_blank hbackend hblank
      exact hedit ▸ hsteps.1

/-- And a valid save that gives one does not. -/
theorem not_gives_of_staysBlank (hbackend : getSecretBackend settings = .ok .awsSecretsManager)
    (hvalid : ValidSaves settings pk steps s) (hstays : StaysBlank settings pk steps s) :
    ∀ step ∈ steps, ¬ step.edit.GivesByAdmin := by
  induction steps generalizing s with
  | nil => simp
  | cons step steps ih =>
    rw [List.forall_mem_cons]
    refine ⟨?_, ih hvalid.2 hstays.2⟩
    have hafter := StaysBlank.start hstays.2
    cases hedit : step.edit with
    | command saving options => exact id
    | admin saving form =>
      intro hgives
      have hvalue := hvalid.1 saving form hedit
      rw [SecretStep.outcome, hedit] at hvalue hafter
      exact admin_gives hbackend hgives hvalue hafter

/-- With the AWS backend the secret columns of an endpoint that has them blank stay blank along
every sequence of edits in which no save of the change form gives a new secret. A sequence with
one does not keep them blank, as long as its saves are valid. -/
theorem external_columns_blank (settings : Settings)
    (hbackend : getSecretBackend settings = .ok .awsSecretsManager) (pk : Nat)
    (steps : List (SecretStep F)) (s : SecretStore) (hblank : BlankColumns pk s) :
    ((∀ step ∈ steps, ¬ step.edit.GivesByAdmin) → StaysBlank settings pk steps s) ∧
      (ValidSaves settings pk steps s → StaysBlank settings pk steps s →
        ∀ step ∈ steps, ¬ step.edit.GivesByAdmin) :=
  ⟨staysBlank_of_not_gives hbackend hblank, not_gives_of_staysBlank hbackend⟩

/-- The only endpoint is given a secret by the change form. -/
def givenByAdmin : SecretStep Fernet.padded where
  edit := .admin exampleSaving givingForm
  key := exampleKey

theorem valid_givenByAdmin : ValidSaves awsSettings 1 [givenByAdmin] noSecrets := by
  refine ⟨fun _ _ _ => ?_, trivial⟩
  have hrow : noSecrets.row 1 = some newEndpoint := rfl
  have hload : loadRow Fernet.padded exampleKey newEndpoint = .ok newEndpoint := rfl
  have hnew : givingForm.rawNewSecret ≠ "" := by decide
  have hsave : (adminSave Fernet.padded awsSettings exampleKey exampleSaving 1
      givingForm).outcome {} noSecrets = _ :=
    outcome_admin getSecretBackend_awsSettings hrow hload hnew rfl {}
  rw [validate_givingForm] at hsave
  rw [SecretStep.outcome]
  exact congrArg Prod.fst hsave

theorem blankColumns_noSecrets (pk : Nat) : BlankColumns pk noSecrets := by
  intro row hrow _
  obtain rfl := List.mem_singleton.mp hrow
  exact ⟨rfl, rfl⟩

/-- The save is valid, and leaves a secret in the row of the endpoint. -/
theorem given_secret_in_row :
    ValidSaves awsSettings 1 [givenByAdmin] noSecrets ∧
      ¬ StaysBlank awsSettings 1 [givenByAdmin] noSecrets := by
  have hvalid := valid_givenByAdmin
  have hgives : givenByAdmin.edit.GivesByAdmin := ⟨by decide, rfl⟩
  exact ⟨hvalid, fun hstays => not_gives_of_staysBlank getSecretBackend_awsSettings hvalid hstays
    givenByAdmin List.mem_cons_self hgives⟩

/-- The only endpoint is given a secret by the command. -/
def givenByCommand : SecretStep Fernet.padded where
  edit := .command exampleSaving
    { endpointId := 1, newSecretFile := some ⟨"new.txt", some "hunter2"⟩, noKeepPrevious := true }

theorem external_columns_blank_command :
    StaysBlank awsSettings 1 [givenByCommand, givenByCommand] noSecrets := by
  refine (external_columns_blank awsSettings getSecretBackend_awsSettings 1
    [givenByCommand, givenByCommand] noSecrets (blankColumns_noSecrets 1)).1 ?_
  intro step hstep
  simp only [List.mem_cons, List.not_mem_nil, or_false, or_self] at hstep
  subst hstep
  exact id

end Sequence

end WebhookRelay
