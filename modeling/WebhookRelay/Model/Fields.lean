import WebhookRelay.Library.Fernet
import WebhookRelay.Model.Endpoint

/-!
# Encrypted columns

The two conversions of `EncryptedCharField` between a secret and its column, and with them
the loading and saving of a row. The key is the setting
`OPENEDX_WEBHOOK_RELAY_ENCRYPTION_KEY`, looked up at every conversion. Logging is left out.
-/

namespace WebhookRelay

/-- The prefix of an encrypted column. -/
def encryptedPrefix : String := "enc::"

/-- The `max_length` that `EncryptedCharField.__init__` gives both to the validator of a secret
and to its column. -/
def maxLength : Nat := 1024

/-- What follows the prefix, if `value.startswith("enc::")`. -/
def tokenOf (value : String) : Option String :=
  (value.toList.dropPrefix? encryptedPrefix.toList).map String.ofList

/-- The secret or column starts like an encrypted one. -/
abbrev Prefixed (value : String) : Prop := (tokenOf value).isSome

theorem tokenOf_eq_some {value token : String} :
    tokenOf value = some token ↔ value = encryptedPrefix ++ token := by
  rw [tokenOf, Option.map_eq_some_iff]
  constructor
  · rintro ⟨rest, hdrop, rfl⟩
    obtain ⟨start, hvalue, hstart⟩ := List.dropPrefix?_eq_some_iff.mp hdrop
    obtain rfl := eq_of_beq hstart
    exact String.toList_injective (by rw [hvalue, String.toList_append, String.toList_ofList])
  · rintro rfl
    refine ⟨token.toList, ?_, String.ofList_toList⟩
    rw [List.dropPrefix?_eq_some_iff]
    exact ⟨encryptedPrefix.toList, String.toList_append, beq_self_eq_true _⟩

@[simp] theorem tokenOf_append (token : String) :
    tokenOf (encryptedPrefix ++ token) = some token := tokenOf_eq_some.mpr rfl

theorem prefixed_append (token : String) : Prefixed (encryptedPrefix ++ token) :=
  Option.isSome_iff_exists.mpr ⟨token, tokenOf_eq_some.mpr rfl⟩

theorem plain_or_prefix (value : String) :
    ¬ Prefixed value ∨ ∃ token, value = encryptedPrefix ++ token := by
  cases htoken : tokenOf value with
  | none => exact .inl (by simp [htoken])
  | some token => exact .inr ⟨token, tokenOf_eq_some.mp htoken⟩

@[simp] theorem tokenOf_empty : tokenOf "" = none := by decide

section Fields

variable (F : Fernet)

/-- `_get_fernet` for the value of the setting. -/
def getFernet (key : Option String) : Except PyError F.Key :=
  match key.filter fun key => key ≠ "" with
  | none => .error (.improperlyConfigured
      ("OPENEDX_WEBHOOK_RELAY_ENCRYPTION_KEY must be set to a valid " ++
        "Fernet key (generate with " ++
        "`python -c \"from cryptography.fernet import Fernet; " ++
        "print(Fernet.generate_key().decode())\"`) before storing or " ++
        "reading webhook signing secrets."))
  | some key => match F.parse key with
    | none => .error (.improperlyConfigured
        "OPENEDX_WEBHOOK_RELAY_ENCRYPTION_KEY is not a valid Fernet key.")
    | some k => .ok k

/-- `EncryptedCharField.get_prep_value`. -/
def getPrepValue (key : Option String) (nonce : F.Nonce) (value : String) :
    Except PyError String :=
  if value = "" then .ok value
  else match tokenOf value with
    | some _ => .ok value -- already encrypted, as far as the text tells
    | none => do
      let fernet ← getFernet F key
      return encryptedPrefix ++ F.encrypt fernet nonce value

/-- `EncryptedCharField.from_db_value`: a token that cannot be read gives an empty secret. -/
def fromDbValue (key : Option String) (value : String) : Except PyError String :=
  if value = "" then .ok value
  else match tokenOf value with
    | none => .ok value -- a legacy row
    | some token => do
      let fernet ← getFernet F key
      return (F.decrypt fernet token).getD ""

/-! ## Rows -/

/-- A row of the table: an endpoint whose secrets are the stored columns. -/
abbrev EndpointRow := WebhookEndpoint

/-- The rows have the same secrets. -/
def SameSecrets (row row' : EndpointRow) : Prop :=
  row.signingSecret = row'.signingSecret ∧ row.signingSecretPrevious = row'.signingSecretPrevious

/-- How a row is saved: what is drawn at random for its columns, and what the database refuses,
as a strict one does with a text that is too long. -/
structure Saving where
  signingSecret : F.Nonce
  signingSecretPrevious : F.Nonce
  refuses : EndpointRow → Bool := fun _ => false

/-- Load an instance from its row. -/
def loadRow (key : Option String) (row : EndpointRow) : Except PyError WebhookEndpoint := do
  let signingSecret ← fromDbValue F key row.signingSecret
  let signingSecretPrevious ← fromDbValue F key row.signingSecretPrevious
  return { row with signingSecret, signingSecretPrevious }

/-- What `objects.get(pk=…, enabled=True)` makes of the row that is stored. -/
def enabledOf (key : Option String) :
    Option EndpointRow → Except PyError (Option WebhookEndpoint)
  | none => .ok none
  | some row => if row.enabled then (loadRow F key row).map some else .ok none

theorem loadRow_of_enabledOf {key : Option String} {row : EndpointRow} {endpoint : WebhookEndpoint}
    (h : enabledOf F key (some row) = .ok (some endpoint)) : loadRow F key row = .ok endpoint := by
  rw [enabledOf] at h
  split at h
  · cases hload : loadRow F key row with
    | error e =>
      rw [hload] at h
      cases h
    | ok loaded =>
      rw [hload] at h
      exact congrArg Except.ok (Option.some.inj (Except.ok.inj h))
  · cases h

/-- The row that `save()` prepares for an instance. -/
def prepareRow (key : Option String) (saving : Saving F) (endpoint : WebhookEndpoint) :
    Except PyError EndpointRow := do
  let signingSecret ← getPrepValue F key saving.signingSecret endpoint.signingSecret
  let signingSecretPrevious ←
    getPrepValue F key saving.signingSecretPrevious endpoint.signingSecretPrevious
  return { endpoint with signingSecret, signingSecretPrevious }

end Fields

section Inversion

variable {F : Fernet} {key : Option String}

/-- Loading a row changes nothing but its secrets. -/
theorem loadRow_inv {row : EndpointRow} {endpoint : WebhookEndpoint}
    (h : loadRow F key row = .ok endpoint) :
    fromDbValue F key row.signingSecret = .ok endpoint.signingSecret ∧
      fromDbValue F key row.signingSecretPrevious = .ok endpoint.signingSecretPrevious ∧
      endpoint = { row with
        signingSecret := endpoint.signingSecret
        signingSecretPrevious := endpoint.signingSecretPrevious } := by
  unfold loadRow at h
  cases hcurrent : fromDbValue F key row.signingSecret with
  | error e => simp [hcurrent, bind, Except.bind] at h
  | ok current =>
    cases hprevious : fromDbValue F key row.signingSecretPrevious with
    | error e => simp [hcurrent, hprevious, bind, Except.bind] at h
    | ok previous =>
      simp only [hcurrent, hprevious, bind, Except.bind] at h
      obtain rfl := Except.ok.inj h
      exact ⟨rfl, rfl, rfl⟩

/-- Nor does saving an instance. -/
theorem prepareRow_inv {saving : Saving F} {endpoint : WebhookEndpoint}
    {row : EndpointRow} (h : prepareRow F key saving endpoint = .ok row) :
    getPrepValue F key saving.signingSecret endpoint.signingSecret = .ok row.signingSecret ∧
      getPrepValue F key saving.signingSecretPrevious endpoint.signingSecretPrevious =
        .ok row.signingSecretPrevious ∧
      row = { endpoint with
        signingSecret := row.signingSecret
        signingSecretPrevious := row.signingSecretPrevious } := by
  unfold prepareRow at h
  cases hcurrent : getPrepValue F key saving.signingSecret endpoint.signingSecret with
  | error e => simp [hcurrent, bind, Except.bind] at h
  | ok current =>
    cases hprevious :
        getPrepValue F key saving.signingSecretPrevious endpoint.signingSecretPrevious with
    | error e => simp [hcurrent, hprevious, bind, Except.bind] at h
    | ok previous =>
      simp only [hcurrent, hprevious, bind, Except.bind] at h
      obtain rfl := Except.ok.inj h
      exact ⟨rfl, rfl, rfl⟩

/-- How a secret gets into its column. -/
theorem getPrepValue_inv {nonce : F.Nonce} {secret column : String} (hne : secret ≠ "")
    (h : getPrepValue F key nonce secret = .ok column) :
    Prefixed secret ∧ column = secret ∨ ¬ Prefixed secret ∧
      ∃ k, getFernet F key = .ok k ∧ column = encryptedPrefix ++ F.encrypt k nonce secret := by
  rw [getPrepValue, if_neg hne] at h
  rcases plain_or_prefix secret with hplain | ⟨token, rfl⟩
  · rw [Option.not_isSome_iff_eq_none.mp hplain] at h
    refine .inr ⟨hplain, ?_⟩
    cases hkey : getFernet F key with
    | error e => simp [hkey, bind, Except.bind] at h
    | ok k =>
      rw [hkey] at h
      exact ⟨k, rfl, (Except.ok.inj h).symm⟩
  · rw [tokenOf_append] at h
    exact .inl ⟨prefixed_append token, (Except.ok.inj h).symm⟩

/-- A column that looks encrypted is loaded only with a usable key. -/
theorem fromDbValue_inv {token secret : String}
    (h : fromDbValue F key (encryptedPrefix ++ token) = .ok secret) :
    ∃ k, getFernet F key = .ok k ∧ secret = (F.decrypt k token).getD "" := by
  have hne : encryptedPrefix ++ token ≠ "" := by
    rw [Ne, String.append_eq_empty_iff]
    exact fun hempty => absurd hempty.1 (by decide)
  rw [fromDbValue, if_neg hne, tokenOf_append] at h
  cases hkey : getFernet F key with
  | error e => simp [hkey, bind, Except.bind] at h
  | ok k =>
    rw [hkey] at h
    exact ⟨k, rfl, (Except.ok.inj h).symm⟩

end Inversion

/-! ## Conversions under a usable key -/

section Usable

variable {F : Fernet} {key : Option String} {k : F.Key}

/-- The column that a secret is stored as. -/
def stored (k : F.Key) (nonce : F.Nonce) (secret : String) : String :=
  if secret = "" ∨ Prefixed secret then secret else encryptedPrefix ++ F.encrypt k nonce secret

/-- The secret that a column is loaded as. -/
def loaded (k : F.Key) (column : String) : String :=
  match tokenOf column with
  | none => column
  | some token => (F.decrypt k token).getD ""

/-- The row as it is loaded. -/
def loadedRow (k : F.Key) (row : EndpointRow) : WebhookEndpoint :=
  { row with
    signingSecret := loaded k row.signingSecret
    signingSecretPrevious := loaded k row.signingSecretPrevious }

theorem getPrepValue_ok (h : getFernet F key = .ok k) (nonce : F.Nonce) (secret : String) :
    getPrepValue F key nonce secret = .ok (stored k nonce secret) := by
  rw [getPrepValue, stored]
  by_cases hempty : secret = ""
  · simp [hempty]
  · by_cases hprefixed : Prefixed secret
    · obtain ⟨token, htoken⟩ := Option.isSome_iff_exists.mp hprefixed
      simp [hempty, htoken]
    · have hnone := Option.not_isSome_iff_eq_none.mp hprefixed
      rw [if_neg hempty, if_neg (not_or.mpr ⟨hempty, hprefixed⟩), hnone]
      simp [h, bind, Except.bind]
      rfl

theorem fromDbValue_ok (h : getFernet F key = .ok k) (column : String) :
    fromDbValue F key column = .ok (loaded k column) := by
  rw [fromDbValue, loaded]
  by_cases hempty : column = ""
  · simp [hempty]
  · cases htoken : tokenOf column <;> simp [hempty, h, bind, Except.bind]
    rfl

theorem loadRow_ok (h : getFernet F key = .ok k) (row : EndpointRow) :
    loadRow F key row = .ok (loadedRow k row) := by
  simp [loadRow, fromDbValue_ok h, bind, Except.bind]
  rfl

theorem prepareRow_ok (h : getFernet F key = .ok k) (saving : Saving F)
    (endpoint : WebhookEndpoint) :
    prepareRow F key saving endpoint = .ok { endpoint with
      signingSecret := stored k saving.signingSecret endpoint.signingSecret
      signingSecretPrevious :=
        stored k saving.signingSecretPrevious endpoint.signingSecretPrevious } := by
  simp [prepareRow, getPrepValue_ok h, bind, Except.bind]
  rfl

@[simp] theorem stored_empty (k : F.Key) (nonce : F.Nonce) : stored k nonce "" = "" := by
  simp [stored]

@[simp] theorem loaded_empty (k : F.Key) : loaded k "" = "" := rfl

theorem stored_of_prefixed {secret : String} (h : Prefixed secret) (k : F.Key)
    (nonce : F.Nonce) : stored k nonce secret = secret := if_pos (.inr h)

theorem stored_of_plain {secret : String} (hne : secret ≠ "") (h : ¬ Prefixed secret)
    (k : F.Key) (nonce : F.Nonce) :
    stored k nonce secret = encryptedPrefix ++ F.encrypt k nonce secret :=
  if_neg (by simp [hne, h])

theorem loaded_of_plain {column : String} (h : ¬ Prefixed column) (k : F.Key) :
    loaded k column = column := by
  rw [loaded, Option.not_isSome_iff_eq_none.mp h]

theorem loaded_append (k : F.Key) (token : String) :
    loaded k (encryptedPrefix ++ token) = (F.decrypt k token).getD "" := by
  rw [loaded, tokenOf_append]

/-- The secret that comes back when a secret is stored and loaded again. -/
def restored (k : F.Key) (secret : String) : String :=
  if Prefixed secret then loaded k secret else secret

@[simp] theorem restored_empty (k : F.Key) : restored k "" = "" := by simp [restored]

/-- A secret that is stored and loaded again under the same key comes back unless it looks
encrypted. -/
theorem loaded_stored (hF : F.Lawful) {secret : String} (h : ¬ Prefixed secret) (k : F.Key)
    (nonce : F.Nonce) : loaded k (stored k nonce secret) = secret := by
  by_cases hne : secret = ""
  · rw [hne, stored_empty, loaded_empty]
  · rw [stored_of_plain hne h, loaded_append, hF.decrypt_encrypt, Option.getD_some]

theorem loaded_stored_eq (hF : F.Lawful) (k : F.Key) (nonce : F.Nonce) (secret : String) :
    loaded k (stored k nonce secret) = restored k secret := by
  by_cases h : Prefixed secret
  · rw [restored, if_pos h, stored_of_prefixed h]
  · rw [restored, if_neg h, loaded_stored hF h]

/-- Under another key it is lost. -/
theorem loaded_stored_other (hF : F.Lawful) {secret : String} (hne : secret ≠ "")
    (h : ¬ Prefixed secret) {k k' : F.Key} (hk : k' ≠ k) (nonce : F.Nonce) :
    loaded k' (stored k nonce secret) = "" := by
  rw [stored_of_plain hne h, loaded_append, hF.decrypt_other hk, Option.getD_none]

/-- A text that looks encrypted is never loaded as itself: what is in a token is shorter. -/
theorem loaded_ne_of_prefixed (hF : F.Lawful) {column : String} (h : Prefixed column)
    (k : F.Key) : loaded k column ≠ column := by
  obtain ⟨token, htoken⟩ := Option.isSome_iff_exists.mp h
  obtain rfl := tokenOf_eq_some.mp htoken
  rw [loaded_append]
  intro heq
  have hlonger : token.length < (encryptedPrefix ++ token).length := by
    rw [String.length_append]
    have : encryptedPrefix.length = 5 := by decide
    omega
  cases hd : F.decrypt k token with
  | none => simp [hd, ← heq] at hlonger
  | some secret =>
    have hshorter := hF.length_lt hd
    rw [hd, Option.getD_some] at heq
    rw [heq] at hshorter
    omega

end Usable

/-! ## The smallest keys -/

/-- The settings in examples: the keys of `Fernet.padded` are single characters. -/
def exampleKey : Option String := some "k"

def exampleSaving : Saving Fernet.padded where
  signingSecret := ()
  signingSecretPrevious := ()

theorem getFernet_exampleKey : getFernet Fernet.padded exampleKey = .ok 'k' := rfl

end WebhookRelay
