import WebhookRelay.Library.Parts
import WebhookRelay.Secrets.KeyRotation

/-!
# Secrets at rest

Any number of commands and change forms, each with settings and a key of its own, edit the table
of endpoints, are interleaved in any way and may stop anywhere. None of them ever stores a secret
as it is: a column that one of them has written is blank or has the prefix of an encrypted one.

## Main results

* `stored_encrypted` — a column in plaintext is one that was in the table before.
-/

namespace WebhookRelay

open Interleaving

/-! ## Who edits -/

/-- A process that edits endpoints, with its own settings and key. -/
inductive Editor (F : Fernet) where
  | secrets (settings : Settings) (key : Option String) (pk : Nat) (edit : SecretEdit F)
  | encryptionKey (saving : Nat → Saving F) (old new : LabelledKey) (dryRun : Bool)

def Editor.program {F : Fernet} : Editor F → Edit Unit
  | .secrets settings key pk edit => edit.run settings key pk
  | .encryptionKey saving old new dryRun => rotateEncryptionKey F saving old new dryRun

variable {ι : Type} {F : Fernet}

/-- Editors on one table, from which endpoints may be deleted. -/
def editors : System editing EditOutside Nat ι (List EndpointRow) (Except EditError Unit) where
  handle := editTable
  environment pk table := table.filter fun row => row.pk ≠ pk
  relaunch _ _ := none

/-- Every editor is about to start. -/
def startEditing (staff : ι → Editor F) (table : List EndpointRow) :
    Config editing ι (List EndpointRow) (Except EditError Unit) where
  store := table
  program i := (staff i).program
  log := []

/-! ## What is saved -/

/-- The column is not a secret in plaintext, as far as its text tells. -/
def AtRest (column : String) : Prop := column = "" ∨ Prefixed column

/-- Neither column is in plaintext. -/
def RowAtRest (row : EndpointRow) : Prop := ∀ column ∈ columns, AtRest (column row)

theorem atRest_getPrepValue {key : Option String} {nonce : F.Nonce} {secret column : String}
    (h : getPrepValue F key nonce secret = .ok column) : AtRest column := by
  by_cases hne : secret = ""
  · rw [getPrepValue, if_pos hne] at h
    obtain rfl := Except.ok.inj h
    exact .inl hne
  · rcases getPrepValue_inv hne h with ⟨hprefixed, rfl⟩ | ⟨-, k, -, rfl⟩
    · exact .inr hprefixed
    · exact .inr (prefixed_append _)

/-- Whatever the instance is, the row that is written for it is not in plaintext. -/
theorem atRest_prepareRow {key : Option String} {saving : Saving F}
    {endpoint : WebhookEndpoint} {row : EndpointRow}
    (h : prepareRow F key saving endpoint = .ok row) : RowAtRest row := by
  obtain ⟨hcurrent, hprevious, -⟩ := prepareRow_inv h
  intro column hcolumn
  simp only [columns, List.mem_cons, List.not_mem_nil, or_false] at hcolumn
  rcases hcolumn with rfl | rfl
  · exact atRest_getPrepValue hcurrent
  · exact atRest_getPrepValue hprevious

/-- The rule of a process that saves nothing in plaintext. -/
def encrypting : Program.Discipline editing Unit :=
  Program.only fun
    | .saveRow row | .saveSecrets row => RowAtRest row
    | _ => True

/-! ## Every editor encrypts -/

section Editing

variable {settings : Settings} {key : Option String}

/-- An edit that saves nothing goes on with one that encrypts. -/
theorem encrypts_andThen {edit : Edit WebhookEndpoint} {next : WebhookEndpoint → Edit Unit}
    (hedit : edit.Follows encrypting (fun _ _ => True) ())
    (hnext : ∀ endpoint, (next endpoint).Follows encrypting (fun _ _ => True) ()) :
    (andThen edit next).Follows encrypting (fun _ _ => True) () := by
  apply hedit.bind
  intro _ result _
  cases result with
  | error e => trivial
  | ok endpoint => exact hnext endpoint

theorem encrypts_loadThen {pk : Nat} {missing : EditError} {next : WebhookEndpoint → Edit Unit}
    (hnext : ∀ endpoint, (next endpoint).Follows encrypting (fun _ _ => True) ()) :
    (loadThen F key pk missing next).Follows encrypting (fun _ _ => True) () := by
  refine ⟨trivial, fun answer => ?_⟩
  cases answer with
  | none => trivial
  | some row =>
    dsimp only
    split
    · trivial
    · exact hnext _

theorem encrypts_setSecret (backend : SecretBackend) (endpoint : WebhookEndpoint)
    (plaintext : String) :
    (backend.setSecret settings endpoint plaintext).Follows encrypting (fun _ _ => True) () := by
  cases backend with
  | database => trivial
  | awsSecretsManager =>
    simp only [SecretBackend.setSecret, awsSetSecret]
    split
    · trivial
    · split
      · refine ⟨trivial, fun answer => ?_⟩
        cases answer <;> trivial
      · refine ⟨trivial, fun answer => ?_⟩
        cases answer with
        | resourceNotFound =>
          refine ⟨trivial, fun answer => ?_⟩
          cases answer <;> trivial
        | _ => trivial

theorem encrypts_saveEndpoint (saving : Saving F) (endpoint : WebhookEndpoint) :
    (saveEndpoint F key saving endpoint).Follows encrypting (fun _ _ => True) () := by
  unfold saveEndpoint
  split
  · trivial
  · next row hrow => exact ⟨atRest_prepareRow (acceptedRow_inv hrow).1, fun _ => trivial⟩

theorem encrypts_rotateSigningSecret (saving : Saving F) (options : RotateOptions) :
    (rotateSigningSecret F settings key saving options).Follows encrypting
      (fun _ _ => True) () := by
  apply encrypts_loadThen
  intro endpoint
  split
  · trivial
  split
  · trivial
  apply encrypts_andThen
  · split
    · trivial
    · unfold setNewSecret
      split
      · trivial
      split
      · trivial
      split
      · trivial
      · exact encrypts_setSecret ..
  · exact fun endpoint => encrypts_saveEndpoint saving _

theorem encrypts_saveModelSecrets {backend : SecretBackend} {form : AdminForm}
    {oldSecret : String} {endpoint : WebhookEndpoint} {edit : Edit WebhookEndpoint}
    (hedit : saveModelSecrets settings backend form oldSecret endpoint = edit) :
    edit.Follows encrypting (fun _ _ => True) () := by
  subst hedit
  unfold saveModelSecrets
  split
  · exact encrypts_setSecret ..
  split
  · exact encrypts_setSecret ..
  · trivial

theorem encrypts_adminSave (saving : Saving F) (pk : Nat) (form : AdminForm) :
    (adminSave F settings key saving pk form).Follows encrypting (fun _ _ => True) () := by
  apply encrypts_loadThen
  intro endpoint
  dsimp only
  split
  · trivial
  split
  · trivial
  · next backend _ =>
    generalize hedit : saveModelSecrets settings backend form endpoint.signingSecret
      (form.construct endpoint) = edit
    apply encrypts_andThen (encrypts_saveModelSecrets hedit)
    exact fun endpoint => encrypts_saveEndpoint saving _

theorem encrypts_saveAll (newKey : String) (saving : Nat → Saving F)
    (endpoints : List WebhookEndpoint) :
    (saveAll F newKey saving endpoints).Follows encrypting (fun _ _ => True) () := by
  induction endpoints with
  | nil => trivial
  | cons endpoint rest ih =>
    unfold saveAll
    split
    · trivial
    · next row hrow =>
      split
      · trivial
      · refine ⟨atRest_prepareRow hrow, fun affected => ?_⟩
        cases affected with
        | true => exact ih
        | false => trivial

theorem encrypts_rotateEncryptionKey (saving : Nat → Saving F) (old new : LabelledKey)
    (dryRun : Bool) :
    (rotateEncryptionKey F saving old new dryRun).Follows encrypting (fun _ _ => True) () := by
  unfold rotateEncryptionKey
  split
  · trivial
  split
  · trivial
  refine ⟨trivial, fun (rows : List EndpointRow) => ?_⟩
  dsimp only
  split
  · trivial
  split
  · trivial
  · exact encrypts_saveAll ..

theorem Editor.encrypts (editor : Editor F) :
    editor.program.Follows encrypting (fun _ _ => True) () := by
  cases editor with
  | secrets settings key pk edit =>
    cases edit with
    | command saving options => exact encrypts_rotateSigningSecret saving _
    | admin saving form => exact encrypts_adminSave saving pk form
  | encryptionKey saving old new dryRun => exact encrypts_rotateEncryptionKey saving old new dryRun

end Editing

/-! ## The table -/

/-- The columns of the row that are in plaintext were in the table. -/
def Kept (table : List EndpointRow) (row : EndpointRow) : Prop :=
  ∀ column ∈ columns, AtRest (column row) ∨
    ∃ earlier ∈ table, earlier.pk = row.pk ∧ column earlier = column row

theorem kept_of_atRest {table : List EndpointRow} {row : EndpointRow} (h : RowAtRest row) :
    Kept table row := fun column hcolumn => .inl (h column hcolumn)

/-- An operation that is permitted stores no secret in plaintext. -/
theorem kept_respondEdit {start table : List EndpointRow} (outside : EditOutside) {op : EditOp}
    (hop : encrypting.permits () op) (h : ∀ row ∈ table, Kept start row) :
    ∀ row ∈ (respondEdit outside op table).2, Kept start row := by
  cases op with
  | saveRow saved =>
    intro row hrow
    simp only [respondEdit] at hrow
    split at hrow
    · obtain ⟨old, hold, rfl⟩ := List.mem_map.mp hrow
      split
      · exact kept_of_atRest hop
      · exact h old hold
    · rcases List.mem_append.mp hrow with hold | hnew
      · exact h row hold
      · obtain rfl := List.mem_singleton.mp hnew
        exact kept_of_atRest hop
  | saveSecrets saved =>
    intro row hrow
    obtain ⟨old, hold, rfl⟩ := List.mem_map.mp hrow
    split
    · apply kept_of_atRest
      intro column hcolumn
      have hsaved := hop column hcolumn
      simp only [columns, List.mem_cons, List.not_mem_nil, or_false] at hcolumn
      rcases hcolumn with rfl | rfl <;> exact hsaved
    · exact h old hold
  | _ => exact h

section Editors

variable [DecidableEq ι] {staff : ι → Editor F} {table : List EndpointRow}
  {G : Config editing ι (List EndpointRow) (Except EditError Unit) →
    Label EditOutside Nat ι → Prop}
  {c : Config editing ι (List EndpointRow) (Except EditError Unit)}

/-- However the editors are interleaved and wherever they stop, and whatever their keys are: a
stored secret is blank, has the prefix of an encrypted one, or is in the column of this endpoint
since the beginning. -/
theorem stored_encrypted (h : editors.Reaches G (startEditing staff table) c) :
    ∀ row ∈ c.store, Kept table row := by
  have hfollows : ∀ {c}, editors.Reaches G (startEditing staff table) c → ∀ i,
      (c.program i).Follows encrypting (fun _ _ => True) () := fun h i =>
    h.follows (D := fun _ => encrypting) (l := fun _ => ()) rfl
      (fun i => (staff i).encrypts) (fun _ _ _ _ _ hagain => by cases hagain) i
  refine h.account (I := fun s _ => ∀ row ∈ s, Kept table row) ?_ ?_ ?_
  · exact fun row hrow column _ => .inr ⟨row, hrow, rfl, rfl⟩
  · intro c i e op rest hr hp hstore
    have hop := hfollows hr i
    rw [hp] at hop
    exact kept_respondEdit e hop.1 hstore
  · exact fun s _ pk hstore row hrow => hstore row (List.mem_of_mem_filter hrow)

/-- The row of an endpoint from before the columns were encrypted. -/
def legacyRow : EndpointRow := { newEndpoint with signingSecret := "hunter2" }

/-- A new secret is set while the encryption key is rotated. -/
def commandAndRotation : Fin 2 → Editor Fernet.padded
  | 0 => .secrets {} exampleKey 1 (.command exampleSaving
    { endpointId := 1, newSecretFile := some ⟨"new.txt", some "fresh"⟩ })
  | _ => .encryptionKey (fun _ => exampleSaving) ⟨"--old-key", "k"⟩ ⟨"--new-key", "n"⟩ false

/-- The rotation is killed before it has saved anything. -/
theorem stored_encrypted_legacy :
    ∃ c, editors.Reaches (fun _ _ => True) (startEditing commandAndRotation [legacyRow]) c ∧
      c.store.map (fun row => (row.signingSecret, row.signingSecretPrevious)) =
        [(encryptedPrefix ++ Fernet.padded.encrypt 'k' () "fresh",
          encryptedPrefix ++ Fernet.padded.encrypt 'k' () "hunter2")] ∧
      ∀ row ∈ c.store, Kept [legacyRow] row := by
  have hrun : (editors.schedule (startEditing commandAndRotation [legacyRow])
      [.run 0 {}, .run 1 {}, .run 0 {}]).map
        (fun c => c.store.map fun row => (row.signingSecret, row.signingSecretPrevious)) =
      some [(encryptedPrefix ++ Fernet.padded.encrypt 'k' () "fresh",
        encryptedPrefix ++ Fernet.padded.encrypt 'k' () "hunter2")] := by
    decide +kernel
  obtain ⟨c, hc, hcolumns⟩ := Option.map_eq_some_iff.mp hrun
  have hreaches := System.reaches_of_schedule hc .refl
  exact ⟨c, hreaches, hcolumns, stored_encrypted hreaches⟩

end Editors

end WebhookRelay
