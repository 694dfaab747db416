import WebhookRelay.Delivery.Headers
import WebhookRelay.Model.Fields
import WebhookRelay.Payload.Shape

/-!
# What requests are signed with

Under the database backend a request is signed with the secrets of the row as it was loaded,
or with the site's default secret if the loaded one is empty. A column that the configured
key cannot read is loaded as an empty secret, so its endpoint's requests are signed with the
default secret, or not at all. A custom header can be sent in the place of a signature.

## Main results

* `attempt_builds` — an attempt sends nothing but what is built from the copy it has loaded.
* `own_signature_iff` — all of an endpoint's requests are sent with a signature by its own secret
  exactly if the key cannot be used at all, or no request can be built, or the key is the one the
  secret was encrypted under and no custom header takes the place of the signature.
-/

namespace WebhookRelay

open Interleaving Program Dictionary

/-- The secret of the endpoint, or else the default one. -/
def WebhookEndpoint.effective (self : WebhookEndpoint) (settings : Settings) : String :=
  if self.signingSecret ≠ "" then self.signingSecret else settings.defaultSecret

/-- Under the database backend the secret is read from the instance. -/
theorem effectiveSecret_database {settings : Settings} (h : settings.secretBackend = "database")
    (endpoint : WebhookEndpoint) :
    endpoint.effectiveSecret settings = .ret (.ok (endpoint.effective settings)) := by
  by_cases hempty : endpoint.signingSecret = "" <;>
    simp [WebhookEndpoint.effectiveSecret, WebhookEndpoint.effective, getSecretBackend, h,
      SecretBackend.getSecret, hempty]

/-! ## Requests of a copy -/

/-- The request that is built from a copy of the endpoint, under the database backend. -/
def WebhookEndpoint.ownRequest (self : WebhookEndpoint) (lib : Primitives) (settings : Settings)
    (correlationId : String) (payload : Payload) : Request :=
  signedRequest lib settings self payload
    (update (fixedHeaders correlationId) self.customHeaders.members) (self.effective settings)

theorem buildRequest_database {settings : Settings} (h : settings.secretBackend = "database")
    (lib : Primitives) (endpoint : WebhookEndpoint) (correlationId : String) (payload : Payload) :
    (∃ e, baseHeaders endpoint correlationId = .error e ∧
      buildRequest lib settings endpoint correlationId payload = .ret (.error e)) ∨
    builds settings endpoint ∧ buildRequest lib settings endpoint correlationId payload =
      .ret (.ok (endpoint.ownRequest lib settings correlationId payload)) := by
  rw [buildRequest_eq]
  cases hheaders : baseHeaders endpoint correlationId with
  | error e => exact .inl ⟨e, rfl, rfl⟩
  | ok headers =>
    obtain rfl := baseHeaders_inv hheaders
    have hbuilds : builds settings endpoint :=
      (builds_iff correlationId).mpr ⟨⟨_, hheaders⟩, ⟨.database, by simp [getSecretBackend, h]⟩⟩
    refine .inr ⟨hbuilds, ?_⟩
    simp only [effectiveSecret_database h, Program.bind]
    rfl

/-- After it has asked for the endpoint, an attempt sends nothing but what is built from the copy
that it has got. -/
theorem attempt_builds (lib : Primitives) {settings : Settings}
    (hbackend : settings.secretBackend = "database") (job : Job) (retries : Nat) :
    ∃ rest, deliverWebhook lib settings job retries = .call .getEnabled rest ∧
      ∀ found, (rest found).Follows (leaving (fun _ => True) fun request =>
        ∃ endpoint, found = .ok (some endpoint) ∧ builds settings endpoint ∧
          ∃ payload, request = endpoint.ownRequest lib settings job.correlationId payload)
        (fun _ _ => True) () := by
  refine attempt_leaves lib settings job _ _ (fun _ _ _ _ => trivial)
    (fun endpoint copy payload hcopy => ?_) retries
  rcases buildRequest_database hbackend lib copy job.correlationId payload with
    ⟨e, -, htree⟩ | ⟨hbuilds, htree⟩
  · rw [htree]
    rintro _ ⟨⟩
  · rw [htree]
    rintro _ ⟨⟩
    refine ⟨endpoint, rfl, ?_⟩
    rcases hcopy with rfl | rfl
    · exact ⟨hbuilds, payload, rfl⟩
    · exact ⟨hbuilds, payload, rfl⟩

/-! ## An attempt on a stored row -/

/-- The database with the rows as they are stored: what a delivery loads is decrypted. -/
def encryptedDatabase (F : Fernet) (key : Option String) : Handler relay Outside Store
  | _, .getEnabled, s => (enabledOf F key (some s.endpoint), s)
  | outside, op, s => respond outside op s

section Stored

variable {F : Fernet} {key : Option String} {lib : Primitives} {settings : Settings} {job : Job}
  {retries : Nat} {outside : Outside} {s : Store}

/-- The store with its row as it is loaded. -/
def Store.decrypted (k : F.Key) (s : Store) : Store := { s with endpoint := loadedRow k s.endpoint }

/-- Nothing but the load depends on the secrets of the stored row. -/
theorem database_decrypted {k : F.Key} (hkey : getFernet F key = .ok k)
    (hload : outside.keyError = none) (op : Op) (s : Store) :
    database outside op (s.decrypted k) =
      ((encryptedDatabase F key outside op s).1,
        (encryptedDatabase F key outside op s).2.decrypted k) := by
  cases op with
  | getEnabled =>
    have henabled : (loadedRow k s.endpoint).enabled = s.endpoint.enabled := rfl
    by_cases h : s.endpoint.enabled = true <;>
      simp [database, respond, encryptedDatabase, enabledOf, Store.decrypted, henabled, h,
        Outside.load, hload, loadRow_ok hkey, Except.map]
  | setHalfOpen =>
    by_cases h : s.endpoint.circuitState = .open <;>
      simp [database, respond, encryptedDatabase, Store.decrypted, loadedRow,
        WebhookEndpoint.halfOpened, h]
  | _ => rfl

/-- Every request of an attempt is built from its row as it was loaded. -/
theorem attempt_signs (hbackend : settings.secretBackend = "database") {request : Request}
    (hrequest : request ∈ requestsOf ((deliverWebhook lib settings job retries).exec
      (encryptedDatabase F key) outside s).events) :
    ∃ endpoint, loadRow F key s.endpoint = .ok endpoint ∧ builds settings endpoint ∧
      ∃ payload, request = endpoint.ownRequest lib settings job.correlationId payload := by
  obtain ⟨rest, htree, hrest⟩ := attempt_builds lib hbackend job retries
  obtain ⟨ev, hev, hop⟩ := mem_requestsOf hrequest
  rw [htree] at hev
  rcases List.mem_cons.mp hev with rfl | hev
  · cases hop
  · have hbuilt := (Follows.exec_only (Q := fun _ => True) (hrest _) _ outside _).2 ev hev
    rw [hop] at hbuilt
    obtain ⟨endpoint, hfound, hbuilds, payload, rfl⟩ := hbuilt
    refine ⟨endpoint, ?_, hbuilds, payload, rfl⟩
    exact loadRow_of_enabledOf F hfound

/-! ## Signed with its own secret, or not sent -/

/-- The request is sent with a signature by the secret, and the secret is what the column is
loaded as. -/
def OwnSignature (F : Fernet) (key : Option String) (lib : Primitives) (lower : String → String)
    (settings : Settings) (column secret : String) (request : Request) : Prop :=
  request.sent lower settings.signatureHeader =
      some (.str (signPayload lib request.data secret)) ∧
    fromDbValue F key column = .ok secret

/-- An endpoint that is new but for its secret and its headers, and takes every event. -/
def signingEndpoint (column : String) (headers : Json := .obj []) : EndpointRow :=
  { newEndpoint with signingSecret := column, customHeaders := headers, onlyOnPassing := false }

/-- A delivery of a payload. -/
def jobOf (correlationId : String) (payload : Payload) : Job where
  event := emptyJob.event
  correlationId := correlationId
  rawPayload _ := payload

/-- Such an endpoint sends the whole payload, once its row can be loaded. -/
theorem signingEndpoint_requests (lib : Primitives) (settings : Settings)
    (hbackend : settings.secretBackend = "database") {k : F.Key} (hkey : getFernet F key = .ok k)
    (column correlationId : String) {headers : Json} (hheaders : headers.truthy → headers.isDict)
    (payload : Payload) :
    (loadedRow k (signingEndpoint column headers)).ownRequest lib settings correlationId payload ∈
      requestsOf ((deliverWebhook lib settings (jobOf correlationId payload) 0).exec
        (encryptedDatabase F key) acceptance
          { endpoint := signingEndpoint column headers }).events := by
  set s : Store := { endpoint := signingEndpoint column headers } with hs
  have hevents := congrArg Execution.events (exec_project
    (database_decrypted hkey (show acceptance.keyError = none from rfl))
    (deliverWebhook lib settings (jobOf correlationId payload) 0) s)
  dsimp only at hevents
  rw [← hevents]
  have hbuilds : builds settings (s.decrypted k).endpoint := by
    cases htruthy : headers.truthy with
    | false => simp [s, Store.decrypted, loadedRow, signingEndpoint, builds, getSecretBackend,
        hbackend, htruthy, Except.isOk, Except.toBool]
    | true => simp [s, Store.decrypted, loadedRow, signingEndpoint, builds, getSecretBackend,
        hbackend, hheaders htruthy, Except.isOk, Except.toBool]
  have hshape : shapeAndCheck payload (s.decrypted k).endpoint = .ok (payload, true) := by
    simp [shapeAndCheck_eq, s, Store.decrypted, loadedRow, signingEndpoint, newEndpoint,
      Json.truthy, shouldSendPassingEvent, Except.bind]
  have hpasses : passes (jobOf correlationId payload) 0 (s.decrypted k).endpoint :=
    passes_iff.mpr ⟨payload, hshape⟩
  have hcourse : course acceptance (s.decrypted k).moment
      (deliverWebhook lib settings (jobOf correlationId payload) 0) = _ :=
    sends lib rfl rfl hpasses rfl hbuilds (by simp [acceptance]) rfl
  rw [course_moment] at hcourse
  have hacts : acts ((deliverWebhook lib settings (jobOf correlationId payload) 0).exec database
      acceptance (s.decrypted k)).events = [.request, .row correlationId 1 .succeeded,
        .recordCircuitSuccess] := congrArg Course.acts hcourse
  obtain ⟨request, hrequest⟩ := List.exists_mem_of_length_pos (l := requestsOf
    ((deliverWebhook lib settings (jobOf correlationId payload) 0).exec database acceptance
      (s.decrypted k)).events) (by
        rw [← count_request_acts, hacts]
        exact Nat.zero_lt_one)
  obtain ⟨-, payload', base, secret, hshape', hbase, hsecret, heq⟩ := attempt_request hrequest
  obtain ⟨rfl, -⟩ := Prod.mk.inj (Except.ok.inj (hshape.symm.trans hshape'))
  obtain rfl := baseHeaders_inv hbase
  rw [effectiveSecret_database hbackend] at hsecret
  obtain rfl := Except.ok.inj hsecret
  have hown : request = (loadedRow k (signingEndpoint column headers)).ownRequest lib settings
      correlationId payload := heq
  exact hown ▸ hrequest

/-- Every request for an endpoint with these custom headers is sent with a signature by its own
secret, whatever else there is to the endpoint and its deliveries, exactly if no key is usable, or
the headers are none that a request can be built with, or the key is the one that the secret was
encrypted under and no other header takes the place of the signature. -/
theorem own_signature_iff (hF : F.Lawful) (lib : Primitives) (lower : String → String)
    (hlower : ∀ name, lower name ≠ lower (name ++ "-Previous")) (settings : Settings)
    (hbackend : settings.secretBackend = "database") (savingKey : Option String)
    (nonce : F.Nonce) (secret column : String) (hsecret : secret ≠ "")
    (hsaved : getPrepValue F savingKey nonce secret = .ok column) (headers : Json)
    (key : Option String) :
    (∀ (s : Store) (job : Job) (retries : Nat) (outside : Outside),
        s.endpoint.signingSecret = column → s.endpoint.customHeaders = headers →
        ∀ request ∈ requestsOf ((deliverWebhook lib settings job retries).exec
            (encryptedDatabase F key) outside s).events,
          OwnSignature F key lib lower settings column secret request) ↔
      (∀ k, getFernet F key ≠ .ok k) ∨ (headers.truthy ∧ ¬ headers.isDict) ∨
        (¬ Prefixed secret ∧ getFernet F key = getFernet F savingKey ∧
          ∀ (correlationId : String) (payload : Payload),
            Unshadowed lower (update (fixedHeaders correlationId) headers.members)
              settings.signatureHeader
              (signatureOf lib (serializePayload lib payload) secret)) := by
  have hsignature : ∀ payload, signatureOf lib (serializePayload lib payload) secret =
      some (.str (signPayload lib (serializePayload lib payload) secret)) := fun _ => if_pos hsecret
  constructor
  · intro h
    cases hkey : getFernet F key with
    | error e => exact .inl nofun
    | ok k =>
    by_cases hheaders : headers.truthy → headers.isDict
    swap
    · exact .inr (.inl (Classical.not_imp.mp hheaders))
    have hown := fun correlationId payload => h _ _ _ _ rfl rfl _
      (signingEndpoint_requests lib settings hbackend hkey column correlationId hheaders payload)
    have hback : loaded k column = secret := by
      have hloaded := (hown "" .empty).2
      rw [fromDbValue_ok hkey] at hloaded
      exact Except.ok.inj hloaded
    have heffective :
        (loadedRow k (signingEndpoint column headers)).effective settings = secret := by
      change (if loaded k column ≠ "" then loaded k column else _) = _
      rw [hback, if_pos hsecret]
    have hunshadowed : ∀ (correlationId : String) (payload : Payload),
        Unshadowed lower (update (fixedHeaders correlationId) headers.members)
          settings.signatureHeader (signatureOf lib (serializePayload lib payload) secret) := by
      intro correlationId payload
      rw [← sent_current_iff lib (hlower _) (nodup_baseHeaders correlationId headers.members)
        (loadedRow k (signingEndpoint column headers)), hsignature]
      have hsent := (hown correlationId payload).1
      rw [WebhookEndpoint.ownRequest, heffective] at hsent
      exact hsent
    obtain ⟨hprefixed, rfl⟩ | ⟨hplain, k', hkey', rfl⟩ := getPrepValue_inv hsecret hsaved
    · exact absurd hback (loaded_ne_of_prefixed hF hprefixed k)
    · rw [loaded_append] at hback
      cases hd : F.decrypt k (F.encrypt k' nonce secret) with
      | none => exact absurd (by rw [← hback, hd, Option.getD_none]) hsecret
      | some message =>
        obtain rfl := hF.key_unique hd
        exact .inr (.inr ⟨hplain, hkey'.symm, hunshadowed⟩)
  · intro h s job retries outside hcolumn hheaders request hrequest
    obtain ⟨endpoint, hload, hbuilds, payload, rfl⟩ := attempt_signs hbackend hrequest
    have hcopy := (loadRow_inv hload).2.2
    have hcustom : endpoint.customHeaders = headers := by
      rw [hcopy]
      exact hheaders
    have hdict : headers.truthy → headers.isDict := fun htruthy => by
      simpa [builds, hcustom, htruthy] using (Bool.and_eq_true_iff.mp hbuilds).1
    have hfrom := (loadRow_inv hload).1
    rw [hcolumn] at hfrom
    obtain ⟨hprefixed, rfl⟩ | ⟨hplain, k', hkey', rfl⟩ := getPrepValue_inv hsecret hsaved
    · obtain ⟨token, htoken⟩ := Option.isSome_iff_exists.mp hprefixed
      rw [tokenOf_eq_some.mp htoken] at hfrom
      obtain ⟨k, hkey, -⟩ := fromDbValue_inv hfrom
      rcases h with hunusable | ⟨htruthy, hlist⟩ | ⟨hplain, -, -⟩
      · exact absurd hkey (hunusable k)
      · exact absurd (hdict htruthy) hlist
      · exact absurd hprefixed hplain
    · obtain ⟨k, hkey, hloaded⟩ := fromDbValue_inv hfrom
      rcases h with hunusable | ⟨htruthy, hlist⟩ | ⟨-, hsame, hunshadowed⟩
      · exact absurd hkey (hunusable k)
      · exact absurd (hdict htruthy) hlist
      · obtain rfl : k = k' := Except.ok.inj (hkey.symm.trans (hsame.trans hkey'))
        rw [hF.decrypt_encrypt, Option.getD_some] at hloaded
        have heffective : endpoint.effective settings = secret := by
          rw [WebhookEndpoint.effective, hloaded, if_pos hsecret]
        refine ⟨?_, hfrom.trans (congrArg _ hloaded)⟩
        rw [WebhookEndpoint.ownRequest, heffective, hcustom]
        exact ((sent_current_iff lib (hlower _) (nodup_baseHeaders job.correlationId headers.members)
          endpoint payload secret).mpr (hunshadowed job.correlationId payload)).trans
            (hsignature payload)

end Stored

/-! ## A key that cannot read the column -/

def siteSettings : Settings := { defaultSecret := "site" }

/-- The column of a secret that was encrypted under another key. -/
def foreignColumn : String := encryptedPrefix ++ Fernet.padded.encrypt 'x' () "hunter2"

/-- The secret cannot be recovered, and a request is made all the same. -/
theorem unrecoverable_secret_sent :
    getPrepValue Fernet.padded (some "x") () "hunter2" = .ok foreignColumn ∧
      ∃ request ∈ requestsOf ((deliverWebhook emptyLib siteSettings emptyJob 0).exec
          (encryptedDatabase Fernet.padded exampleKey) acceptance
          { endpoint := signingEndpoint foreignColumn }).events,
        ¬ OwnSignature Fernet.padded exampleKey emptyLib asciiLower siteSettings foreignColumn
          "hunter2" request := by
  have hlost : fromDbValue Fernet.padded exampleKey foreignColumn = .ok "" := by decide +kernel
  exact ⟨rfl, _, signingEndpoint_requests emptyLib siteSettings rfl
    getFernet_exampleKey foreignColumn emptyJob.correlationId (by decide) .empty,
    fun hown => absurd (Except.ok.inj (hlost.symm.trans hown.2)) (by decide)⟩

/-- A header that every request has. -/
def teamHeaders : Json := .obj [("X-Team", .str "learning")]

/-- Under the key that the secret was saved with, requests are sent, and all with its signature. -/
theorem own_signature_iff_team :
    requestsOf ((deliverWebhook emptyLib siteSettings emptyJob 0).exec
        (encryptedDatabase Fernet.padded (some "x")) acceptance
        { endpoint := signingEndpoint foreignColumn teamHeaders }).events ≠ [] ∧
      ∀ (s : Store) (job : Job) (retries : Nat) (outside : Outside),
        s.endpoint.signingSecret = foreignColumn → s.endpoint.customHeaders = teamHeaders →
        ∀ request ∈ requestsOf ((deliverWebhook emptyLib siteSettings job retries).exec
            (encryptedDatabase Fernet.padded (some "x")) outside s).events,
          OwnSignature Fernet.padded (some "x") emptyLib asciiLower siteSettings foreignColumn
            "hunter2" request := by
  refine ⟨List.ne_nil_of_mem (signingEndpoint_requests emptyLib siteSettings rfl
    (k := 'x') rfl foreignColumn emptyJob.correlationId (fun _ => rfl) .empty), ?_⟩
  refine (own_signature_iff Fernet.padded_lawful emptyLib asciiLower asciiLower_ne siteSettings rfl
    (some "x") () "hunter2" foreignColumn (by decide) rfl teamHeaders (some "x")).mpr
    (.inr (.inr ⟨by decide, rfl, fun correlationId payload => ?_⟩))
  rw [signatureOf, if_pos (by decide)]
  have hkeys : keys (update (fixedHeaders correlationId) teamHeaders.members) =
      ["Content-Type", "Accept", "X-OpenEdX-Webhook-Correlation-Id", "X-Team"] := rfl
  intro hname
  rw [hkeys] at hname
  exact absurd hname (by decide)

end WebhookRelay
